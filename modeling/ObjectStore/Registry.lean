/-!
# Registries

Values under numbers, each number at most once, in the order in which the numbers came.
-/

namespace ObjectStore

/-- Values under numbers. -/
structure Registry (α : Type) where
  entries : List (Nat × α)
  nodup : (entries.map (·.1)).Nodup
  deriving Repr

namespace Registry

variable {α : Type}

def empty : Registry α := ⟨[], List.nodup_nil⟩

instance : Inhabited (Registry α) := ⟨empty⟩

def keys (r : Registry α) : List Nat := r.entries.map (·.1)

def values (r : Registry α) : List α := r.entries.map (·.2)

def size (r : Registry α) : Nat := r.entries.length

def isEmpty (r : Registry α) : Bool := r.entries.isEmpty

/-- The value under a number. -/
def find? (r : Registry α) (key : Nat) : Option α := r.entries.lookup key

def contains (r : Registry α) (key : Nat) : Bool := r.keys.contains key

/-- Change the value under a number that is there. -/
def assign (key : Nat) (a : α) (e : Nat × α) : Nat × α := if e.1 = key then (e.1, a) else e

theorem map_fst_assign (key : Nat) (a : α) (entries : List (Nat × α)) :
    (entries.map (assign key a)).map (·.1) = entries.map (·.1) := by
  simp only [List.map_map]
  congr 1
  funext e
  simp only [Function.comp, assign]
  split <;> rfl

theorem nodup_append_new {entries : List (Nat × α)} (h : (entries.map (·.1)).Nodup) {key : Nat}
    (a : α) (hk : key ∉ entries.map (·.1)) : ((entries ++ [(key, a)]).map (·.1)).Nodup := by
  rw [List.map_append, List.nodup_append]
  refine ⟨h, by simp, ?_⟩
  intro k hmem b hb hkb
  simp only [List.map_cons, List.map_nil, List.mem_singleton] at hb
  exact hk (hb ▸ hkb ▸ hmem)

/-- Put a value under a number: in place of the value that was there, or at the end. -/
def set (r : Registry α) (key : Nat) (a : α) : Registry α :=
  if h : key ∈ r.entries.map (·.1) then
    ⟨r.entries.map (assign key a), (map_fst_assign key a r.entries) ▸ r.nodup⟩
  else ⟨r.entries ++ [(key, a)], nodup_append_new r.nodup a h⟩

/-- Take a number out. -/
def erase (r : Registry α) (key : Nat) : Registry α :=
  ⟨r.entries.filter fun e => e.1 != key,
    (List.Sublist.map _ List.filter_sublist).nodup r.nodup⟩

/-- Change all values. -/
def mapValues (f : α → α) (r : Registry α) : Registry α :=
  ⟨r.entries.map fun e => (e.1, f e.2), by
    have h : (r.entries.map fun e => (e.1, f e.2)).map (·.1) = r.entries.map (·.1) := by
      simp [List.map_map, Function.comp_def]
    exact h ▸ r.nodup⟩

/-- Change the value under a number if it is there. -/
def modify (r : Registry α) (key : Nat) (f : α → α) : Registry α :=
  match r.find? key with
  | none => r
  | some a => r.set key (f a)

/-- The first number whose value has a property. -/
def findKey? (p : α → Bool) (r : Registry α) : Option Nat :=
  (r.entries.find? fun e => p e.2).map (·.1)

theorem find?_eq_none {r : Registry α} {key : Nat} : r.find? key = none ↔ key ∉ r.keys := by
  unfold find? keys
  rw [List.lookup_eq_none_iff]
  constructor
  · rintro h hm
    obtain ⟨e, he, rfl⟩ := List.mem_map.1 hm
    have := h e he
    simp at this
  · intro h e he
    have hne : key ≠ e.1 := fun hk => h (List.mem_map.2 ⟨e, he, hk.symm⟩)
    simp [hne]

theorem lookup_map_assign_self {entries : List (Nat × α)} {key : Nat} (a : α)
    (h : key ∈ entries.map (·.1)) : (entries.map (assign key a)).lookup key = some a := by
  induction entries with
  | nil => simp at h
  | cons e rest ih =>
      obtain ⟨n, b⟩ := e
      by_cases hn : n = key
      · simp [assign, hn]
      · have hr : key ∈ rest.map (·.1) := by simpa [Ne.symm hn] using h
        simp [assign, hn, List.lookup_cons, beq_false_of_ne (Ne.symm hn), ih hr]

theorem lookup_map_assign_ne (entries : List (Nat × α)) {key k : Nat} (a : α) (hk : k ≠ key) :
    (entries.map (assign key a)).lookup k = entries.lookup k := by
  induction entries with
  | nil => rfl
  | cons e rest ih =>
      obtain ⟨n, b⟩ := e
      by_cases hn : n = key
      · simp [assign, hn, List.lookup_cons, beq_false_of_ne hk, ih]
      · simp [assign, hn, List.lookup_cons, ih]

theorem lookup_append_new (entries : List (Nat × α)) {key : Nat} (a : α)
    (hk : key ∉ entries.map (·.1)) (k : Nat) :
    (entries ++ [(key, a)]).lookup k = if k = key then some a else entries.lookup k := by
  induction entries with
  | nil =>
      by_cases h : k = key
      · simp [h]
      · simp [List.lookup_cons, beq_false_of_ne h, h]
  | cons e rest ih =>
      obtain ⟨n, b⟩ := e
      simp only [List.map_cons, List.mem_cons, not_or] at hk
      by_cases hn : k = n
      · subst hn
        simp [Ne.symm hk.1]
      · simp [List.lookup_cons, beq_false_of_ne hn, ih hk.2]

/-- What stands under each number after one was set. -/
theorem find?_set (r : Registry α) (key : Nat) (a : α) (k : Nat) :
    (r.set key a).find? k = if k = key then some a else r.find? k := by
  unfold set find?
  split
  · rename_i h
    by_cases hk : k = key
    · rw [if_pos hk, hk]
      exact lookup_map_assign_self a h
    · rw [if_neg hk]
      exact lookup_map_assign_ne r.entries a hk
  · rename_i h
    exact lookup_append_new r.entries a h k

theorem lookup_filter_ne (entries : List (Nat × α)) (key k : Nat) :
    (entries.filter fun e => e.1 != key).lookup k =
      if k = key then none else entries.lookup k := by
  induction entries with
  | nil => simp
  | cons e rest ih =>
      obtain ⟨n, b⟩ := e
      by_cases hn : n = key
      · subst hn
        by_cases hk : k = n
        · subst hk
          simpa using ih
        · simp [List.lookup_cons, beq_false_of_ne hk, ih, hk]
      · by_cases hk : k = n
        · subst hk
          simp [hn]
        · simp [hn, List.lookup_cons, beq_false_of_ne hk, ih]

/-- What stands under each number after one was taken out. -/
theorem find?_erase (r : Registry α) (key k : Nat) :
    (r.erase key).find? k = if k = key then none else r.find? k :=
  lookup_filter_ne r.entries key k

end Registry

end ObjectStore
