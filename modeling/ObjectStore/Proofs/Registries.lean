import ObjectStore.Registry

/-!
# Counts and look-ups in registries

How the number of values with a property changes when a value is put, taken out or changed, and
what stands under a number afterwards. A number occurs at most once, so one entry accounts for
the whole difference.
-/

namespace ObjectStore.Registry

variable {α : Type}

/-- How many values have a property. -/
def count (p : α → Bool) (r : Registry α) : Nat := r.entries.countP fun e => p e.2

@[simp] theorem find?_empty (key : Nat) : (empty : Registry α).find? key = none := rfl

private theorem countP_map_assign (p : α → Bool) (key : Nat) (a : α)
    (entries : List (Nat × α)) (hd : (entries.map (·.1)).Nodup)
    (hk : key ∈ entries.map (·.1)) :
    (entries.map (assign key a)).countP (fun e => p e.2) + ((entries.lookup key).any p).toNat
      = entries.countP (fun e => p e.2) + (p a).toNat := by
  induction entries with
  | nil => simp at hk
  | cons e rest ih =>
      obtain ⟨n, b⟩ := e
      simp only [List.map_cons, List.nodup_cons] at hd
      by_cases hn : n = key
      · subst hn
        -- The rest holds no such number, so nothing in it is assigned.
        have hrest : rest.map (assign n a) = rest := by
          have hid : ∀ e ∈ rest, assign n a e = e := by
            intro e he
            have hne : e.1 ≠ n := fun h => hd.1 (List.mem_map.2 ⟨e, he, h⟩)
            simp [assign, hne]
          exact (List.map_congr_left hid).trans (List.map_id _)
        simp only [List.map_cons, hrest, assign, if_pos, List.countP_cons,
          List.lookup_cons, beq_self_eq_true, Option.any_some]
        cases p a <;> cases p b <;> simp
      · have hr : key ∈ rest.map (·.1) := by simpa [Ne.symm hn] using hk
        have ih := ih hd.2 hr
        simp only [List.map_cons, assign, if_neg hn, List.countP_cons, List.lookup_cons,
          beq_false_of_ne (Ne.symm hn)] at ih ⊢
        omega

private theorem countP_filter_ne (p : α → Bool) (key : Nat) (entries : List (Nat × α))
    (hd : (entries.map (·.1)).Nodup) :
    (entries.filter fun e => e.1 != key).countP (fun e => p e.2)
        + ((entries.lookup key).any p).toNat
      = entries.countP (fun e => p e.2) := by
  induction entries with
  | nil => rfl
  | cons e rest ih =>
      obtain ⟨n, b⟩ := e
      simp only [List.map_cons, List.nodup_cons] at hd
      by_cases hn : n = key
      · subst hn
        have hrest : (rest.filter fun e => e.1 != n) = rest := by
          apply List.filter_eq_self.2
          intro e he
          have hne : e.1 ≠ n := fun h => hd.1 (List.mem_map.2 ⟨e, he, h⟩)
          simp [hne]
        simp only [List.filter_cons, bne_self_eq_false, Bool.false_eq_true, if_false, hrest,
          List.lookup_cons, beq_self_eq_true, Option.any_some, List.countP_cons]
        cases p b <;> simp
      · have ih := ih hd.2
        simp only [List.filter_cons, bne_iff_ne, ne_eq, hn, not_false_eq_true, if_true,
          List.countP_cons, List.lookup_cons, beq_false_of_ne (Ne.symm hn)] at ih ⊢
        omega

/-- Putting a value replaces what the number stood for in the count. -/
theorem count_set (p : α → Bool) (r : Registry α) (key : Nat) (a : α) :
    (r.set key a).count p + ((r.find? key).any p).toNat = r.count p + (p a).toNat := by
  unfold set count find?
  split
  · rename_i h
    exact countP_map_assign p key a r.entries r.nodup h
  · rename_i h
    have hnone : r.entries.lookup key = none := find?_eq_none.2 h
    rw [hnone]
    cases hp : p a <;> simp [hp]

/-- Taking a number out takes its value out of the count. -/
theorem count_erase (p : α → Bool) (r : Registry α) (key : Nat) :
    (r.erase key).count p + ((r.find? key).any p).toNat = r.count p :=
  countP_filter_ne p key r.entries r.nodup

/-- A change of all values that keeps a property keeps the count. -/
theorem count_mapValues (p : α → Bool) (f : α → α) (hf : ∀ a, p (f a) = p a) (r : Registry α) :
    (r.mapValues f).count p = r.count p := by
  unfold mapValues count
  rw [List.countP_map]
  congr 1
  funext e
  exact hf e.2

theorem count_modify (p : α → Bool) (f : α → α) (hf : ∀ a, p (f a) = p a) (r : Registry α)
    (key : Nat) : (r.modify key f).count p = r.count p := by
  unfold modify
  cases hk : r.find? key with
  | none => rfl
  | some a =>
      have h := count_set p r key (f a)
      rw [hk, Option.any_some, hf a] at h
      exact Nat.add_right_cancel h

/-- Two properties that exclude each other and imply a third one. -/
theorem count_add_le {p q s : α → Bool} (h : ∀ a, (p a).toNat + (q a).toNat ≤ (s a).toNat)
    (r : Registry α) : r.count p + r.count q ≤ r.count s := by
  unfold count
  induction r.entries with
  | nil => simp
  | cons e rest ih =>
      have he := h e.2
      simp only [List.countP_cons]
      cases hp : p e.2 <;> cases hq : q e.2 <;> cases hs : s e.2 <;>
        simp [hp, hq, hs] at he ⊢ <;> omega

theorem find?_mapValues (f : α → α) (r : Registry α) (key : Nat) :
    (r.mapValues f).find? key = (r.find? key).map f := by
  obtain ⟨entries, hd⟩ := r
  simp only [mapValues, find?]
  clear hd
  induction entries with
  | nil => rfl
  | cons e rest ih =>
      obtain ⟨n, a⟩ := e
      by_cases hn : key = n
      · simp [hn]
      · simp [List.lookup_cons, beq_false_of_ne hn, ih]

theorem find?_modify (r : Registry α) (key : Nat) (f : α → α) (k : Nat) :
    (r.modify key f).find? k = if k = key then (r.find? key).map f else r.find? k := by
  unfold modify
  cases hk : r.find? key with
  | none =>
      by_cases h : k = key
      · simp [h, hk]
      · simp [h]
  | some a => simp [find?_set]

private theorem lookup_of_mem (entries : List (Nat × α)) (hd : (entries.map (·.1)).Nodup)
    (e : Nat × α) (he : e ∈ entries) : entries.lookup e.1 = some e.2 := by
  induction entries with
  | nil => simp at he
  | cons f rest ih =>
      obtain ⟨n, b⟩ := f
      simp only [List.map_cons, List.nodup_cons] at hd
      rcases List.mem_cons.1 he with rfl | hr
      · simp
      · have hne : e.1 ≠ n := fun h => hd.1 (h ▸ List.mem_map.2 ⟨e, hr, rfl⟩)
        rw [List.lookup_cons, beq_false_of_ne hne]
        exact ih hd.2 hr

/-- What a registry holds is found under its number. -/
theorem find?_of_mem {r : Registry α} {e : Nat × α} (he : e ∈ r.entries) :
    r.find? e.1 = some e.2 :=
  lookup_of_mem r.entries r.nodup e he

theorem mem_of_find? {r : Registry α} {key : Nat} {a : α} (h : r.find? key = some a) :
    (key, a) ∈ r.entries := by
  obtain ⟨before, after, hentries, -⟩ := List.lookup_eq_some_iff.1 h
  rw [hentries]
  exact List.mem_append_right _ List.mem_cons_self

/-- The number that is found has a value with the property. -/
theorem findKey?_eq_some {p : α → Bool} {r : Registry α} {key : Nat}
    (h : r.findKey? p = some key) : ∃ a, r.find? key = some a ∧ p a = true := by
  unfold findKey? at h
  obtain ⟨e, he, rfl⟩ := Option.map_eq_some_iff.1 h
  have hp : p e.2 = true := by simpa using List.find?_some he
  exact ⟨e.2, lookup_of_mem r.entries r.nodup e (List.mem_of_find?_eq_some he), hp⟩

theorem mem_keys_of_find? {r : Registry α} {key : Nat} {a : α} (h : r.find? key = some a) :
    key ∈ r.keys := by
  refine Decidable.not_not.1 fun hnot => ?_
  rw [find?_eq_none.2 hnot] at h
  cases h

theorem size_eq_length_keys (r : Registry α) : r.size = r.keys.length := by
  rw [size, keys, List.length_map]

/-- A number that is new comes last. -/
theorem keys_set_of_new {r : Registry α} {key : Nat} (h : key ∉ r.keys) (a : α) :
    (r.set key a).keys = r.keys ++ [key] := by
  have hnew : ¬key ∈ r.entries.map (·.1) := h
  rw [set, dif_neg hnew]
  simp [keys]

/-- To take a number out that is there takes out nothing else. -/
theorem keys_perm_erase {r : Registry α} {key : Nat} (h : key ∈ r.keys) :
    r.keys.Perm (key :: (r.erase key).keys) := by
  have hkeys : (r.erase key).keys = r.keys.erase key := by
    have hnodup : r.keys.Nodup := r.nodup
    rw [hnodup.erase_eq_filter, keys, erase, keys, List.filter_map]
    rfl
  rw [hkeys]
  exact List.perm_cons_erase h

theorem entries_eq_nil {r : Registry α} (h : ∀ key, r.find? key = none) :
    r.entries = [] := by
  cases hentries : r.entries with
  | nil => rfl
  | cons e rest =>
      have hkey := find?_eq_none.1 (h e.1)
      rw [keys, hentries] at hkey
      simp at hkey

theorem count_eq_zero {p : α → Bool} {r : Registry α}
    (h : ∀ key a, r.find? key = some a → p a = false) : r.count p = 0 := by
  unfold count
  rw [List.countP_eq_zero]
  intro e he
  rw [h e.1 e.2 (find?_of_mem he)]
  exact Bool.false_ne_true

end ObjectStore.Registry
