import ObjectStore.Pool
import ObjectStore.Proofs.Registries

/-!
# Stages of the users of a pool

Which stages hold a permit and which a channel, what the small operations of a pool do to the
stages, and what the search among the idle channels finds. Later modules open the operations
with these lemmas only.
-/

namespace ObjectStore

namespace Stage

/-- The stages past the wait for a permit. -/
def holdsPermit (s : Stage) : Bool := !s.isWaiting

def isConnecting : Stage → Bool
  | .connecting _ => true
  | .waiting _ | .granted | .leased _ => false

/-- The channel of a lease. -/
def channel? : Stage → Option Channel
  | .leased c => some c
  | .waiting _ | .granted | .connecting _ => none

def isLeased (s : Stage) : Bool := s.channel?.isSome

@[simp] theorem holdsPermit_values :
    (∀ t, (waiting t).holdsPermit = false) ∧ granted.holdsPermit = true ∧
      (∀ t, (connecting t).holdsPermit = true) ∧ ∀ c, (leased c).holdsPermit = true :=
  ⟨fun _ => rfl, rfl, fun _ => rfl, fun _ => rfl⟩

@[simp] theorem isConnecting_values :
    (∀ t, (waiting t).isConnecting = false) ∧ granted.isConnecting = false ∧
      (∀ t, (connecting t).isConnecting = true) ∧ ∀ c, (leased c).isConnecting = false :=
  ⟨fun _ => rfl, rfl, fun _ => rfl, fun _ => rfl⟩

@[simp] theorem channel?_values :
    (∀ t, (waiting t).channel? = none) ∧ granted.channel? = none ∧
      (∀ t, (connecting t).channel? = none) ∧ ∀ c, (leased c).channel? = some c :=
  ⟨fun _ => rfl, rfl, fun _ => rfl, fun _ => rfl⟩

@[simp] theorem isLeased_values :
    (∀ t, (waiting t).isLeased = false) ∧ granted.isLeased = false ∧
      (∀ t, (connecting t).isLeased = false) ∧ ∀ c, (leased c).isLeased = true :=
  ⟨fun _ => rfl, rfl, fun _ => rfl, fun _ => rfl⟩

@[simp] theorem channel?_mapChannel (f : Channel → Channel) (s : Stage) :
    (s.mapChannel f).channel? = s.channel?.map f := by
  cases s <;> rfl

theorem holdsPermit_mapChannel (f : Channel → Channel) (s : Stage) :
    (s.mapChannel f).holdsPermit = s.holdsPermit := by
  cases s <;> rfl

theorem isConnecting_mapChannel (f : Channel → Channel) (s : Stage) :
    (s.mapChannel f).isConnecting = s.isConnecting := by
  cases s <;> rfl

theorem isLeased_mapChannel (f : Channel → Channel) (s : Stage) :
    (s.mapChannel f).isLeased = s.isLeased := by
  cases s <;> rfl

end Stage

namespace Pool

variable {p : Pool} {user : Nat}

@[simp] theorem stage?_put (p : Pool) (user : Nat) (s : Stage) (v : Nat) :
    (p.put user s).stage? v = if v = user then some s else p.stage? v :=
  p.users.find?_set user s v

@[simp] theorem stage?_remove (p : Pool) (user v : Nat) :
    (p.remove user).stage? v = if v = user then none else p.stage? v :=
  p.users.find?_erase user v

theorem stage?_update (p : Pool) (user : Nat) (f : Channel → Channel) (v : Nat) :
    (p.update user f).stage? v =
      if v = user then (p.stage? user).map (Stage.mapChannel f) else p.stage? v :=
  p.users.find?_modify user (Stage.mapChannel f) v

/-- A permit that comes back to an open pool goes to a user who waits, or is free. -/
theorem giveBack_cases (p : Pool) :
    p.giveBack = { p with free := p.free + 1 } ∨
      ∃ user deadline, p.stage? user = some (.waiting deadline) ∧
        p.giveBack = p.put user .granted := by
  unfold giveBack
  split
  · exact Or.inl rfl
  · cases hk : p.users.findKey? Stage.isWaiting with
    | none => exact Or.inl rfl
    | some user =>
        obtain ⟨s, hs, hw⟩ := Registry.findKey?_eq_some hk
        cases s with
        | waiting deadline => exact Or.inr ⟨user, deadline, hs, rfl⟩
        | granted => cases hw
        | connecting deadline => cases hw
        | leased c => cases hw

/-- A permit that comes back changes nothing but the free permits and the users. -/
theorem giveBack_frame (p : Pool) :
    p.giveBack = { p with free := p.giveBack.free, users := p.giveBack.users } := by
  rcases giveBack_cases p with h | ⟨user, deadline, -, h⟩
  · rw [h]
  · rw [h]
    rfl

@[simp] theorem giveBack_now (p : Pool) : p.giveBack.now = p.now := by
  rw [giveBack_frame]

@[simp] theorem giveBack_idle (p : Pool) : p.giveBack.idle = p.idle := by
  rw [giveBack_frame]

@[simp] theorem giveBack_nextId (p : Pool) : p.giveBack.nextId = p.nextId := by
  rw [giveBack_frame]

@[simp] theorem giveBack_isClosed (p : Pool) : p.giveBack.isClosed = p.isClosed := by
  rw [giveBack_frame]

@[simp] theorem giveBack_pending (p : Pool) : p.giveBack.pending = p.pending := by
  rw [giveBack_frame]

@[simp] theorem giveBack_acquired (p : Pool) : p.giveBack.acquired = p.acquired := by
  rw [giveBack_frame]

@[simp] theorem giveBack_created (p : Pool) : p.giveBack.created = p.created := by
  rw [giveBack_frame]

@[simp] theorem giveBack_reused (p : Pool) : p.giveBack.reused = p.reused := by
  rw [giveBack_frame]

@[simp] theorem giveBack_closed (p : Pool) : p.giveBack.closed = p.closed := by
  rw [giveBack_frame]

/-! ## Users in a stage of some kind

What the small operations do to the answer to "is the user in such a stage", for any set of
stages. An operation that only hands a permit over, or only changes channels, does nothing to it
when the set does not tell the stages before and after apart.
-/

section Kinds
variable (q : Stage → Bool) (p : Pool) (user v : Nat)

theorem any_stage?_put (s : Stage) :
    ((p.put user s).stage? v).any q = if v = user then q s else (p.stage? v).any q := by
  rw [stage?_put]
  split <;> rfl

theorem any_stage?_remove :
    ((p.remove user).stage? v).any q = if v = user then false else (p.stage? v).any q := by
  rw [stage?_remove]
  split <;> rfl

theorem any_stage?_giveBack (hq : ∀ deadline, q (.waiting deadline) = q .granted) :
    (p.giveBack.stage? v).any q = (p.stage? v).any q := by
  rcases giveBack_cases p with h | ⟨user, deadline, hs, h⟩
  · rw [h]
    rfl
  · rw [h, any_stage?_put]
    split
    · rename_i hv
      rw [hv, hs, Option.any_some, hq]
    · rfl

theorem any_map_mapChannel (f : Channel → Channel) (hq : ∀ s, q (s.mapChannel f) = q s)
    (stage : Option Stage) : (stage.map (Stage.mapChannel f)).any q = stage.any q := by
  cases stage with
  | none => rfl
  | some s => exact hq s

theorem any_stage?_update (f : Channel → Channel) (hq : ∀ s, q (s.mapChannel f) = q s) :
    ((p.update user f).stage? v).any q = (p.stage? v).any q := by
  rw [stage?_update]
  split
  · rename_i hv
    rw [hv, any_map_mapChannel q f hq]
  · rfl

theorem any_stage?_peerClosed (id : Nat) (hq : ∀ f s, q (Stage.mapChannel f s) = q s) :
    ((p.peerClosed id).stage? v).any q = (p.stage? v).any q := by
  have hstage : (p.peerClosed id).stage? v = (p.stage? v).map (Stage.mapChannel _) :=
    p.users.find?_mapValues _ v
  rw [hstage, any_map_mapChannel q _ (hq _)]

end Kinds

/-! ## The search among the idle channels -/

/-- The search stops at the first good channel, and drops the channels before it. -/
theorem takeIdle_eq_some {good : Channel → Bool} {idle left : List Channel} {c : Channel}
    {dropped : Nat} (h : takeIdle good idle = (some c, left, dropped)) :
    ∃ stale, idle = stale ++ c :: left ∧ stale.length = dropped ∧ good c = true ∧
      ∀ x ∈ stale, good x = false := by
  induction idle generalizing dropped with
  | nil => simp [takeIdle] at h
  | cons x rest ih =>
      by_cases hx : good x = true
      · simp only [takeIdle, hx, if_true, Prod.mk.injEq, Option.some.injEq] at h
        obtain ⟨rfl, rfl, rfl⟩ := h
        exact ⟨[], rfl, rfl, hx, by simp⟩
      · simp only [takeIdle, hx, Bool.false_eq_true, if_false, Prod.mk.injEq] at h
        obtain ⟨hf, hl, rfl⟩ := h
        obtain ⟨stale, rfl, hn, hc, hs⟩ := ih (Prod.ext hf (Prod.ext hl rfl))
        refine ⟨x :: stale, rfl, by simp [hn], hc, ?_⟩
        intro y hy
        rcases List.mem_cons.1 hy with rfl | hy
        · exact Bool.eq_false_iff.2 hx
        · exact hs y hy

/-- A search that finds nothing drops all channels. -/
theorem takeIdle_eq_none {good : Channel → Bool} {idle left : List Channel} {dropped : Nat}
    (h : takeIdle good idle = (none, left, dropped)) :
    left = [] ∧ idle.length = dropped ∧ ∀ x ∈ idle, good x = false := by
  induction idle generalizing dropped with
  | nil =>
      simp only [takeIdle, Prod.mk.injEq] at h
      obtain ⟨-, rfl, rfl⟩ := h
      exact ⟨rfl, rfl, by simp⟩
  | cons x rest ih =>
      by_cases hx : good x = true
      · simp [takeIdle, hx] at h
      · simp only [takeIdle, hx, Bool.false_eq_true, if_false, Prod.mk.injEq] at h
        obtain ⟨hf, hl, rfl⟩ := h
        obtain ⟨hleft, hn, hs⟩ := ih (Prod.ext hf (Prod.ext hl rfl))
        refine ⟨hleft, by simp [hn], ?_⟩
        intro y hy
        rcases List.mem_cons.1 hy with rfl | hy
        · exact Bool.eq_false_iff.2 hx
        · exact hs y hy

end Pool

end ObjectStore
