import ObjectStore.Proofs.NamedObjects

/-!
# Removals

A removal takes up one group of keys after the other. The keys of a group are swept one by one, or
deleted by a single delete or by bulk deletes, which together name each of the keys once.
-/

namespace ObjectStore

namespace CommandLine

open Request

variable {bucket : String} {options : ListingOptions}

/-! ## Batches -/

theorem mem_chunksFor {A : Type} {size fuel : Nat} {xs chunk : List A} (hsize : 0 < size)
    (h : chunk ∈ chunksFor size fuel xs) : chunk ≠ [] ∧ chunk.length ≤ size := by
  induction fuel generalizing xs with
  | zero => cases h
  | succ fuel ih =>
      cases xs with
      | nil => cases h
      | cons x r =>
          rcases List.mem_cons.1 h with rfl | h
          · exact ⟨by simp [Nat.ne_of_gt hsize], List.length_take_le _ _⟩
          · exact ih h

theorem flatten_chunksFor {A : Type} {size fuel : Nat} {xs : List A} (hsize : 0 < size)
    (hfuel : xs.length ≤ fuel) : (chunksFor size fuel xs).flatten = xs := by
  induction fuel generalizing xs with
  | zero => exact (List.length_eq_zero_iff.1 (Nat.le_zero.1 hfuel)).symm
  | succ fuel ih =>
      cases xs with
      | nil => rfl
      | cons x r =>
          have hrest : ((x :: r).drop size).length ≤ fuel := by
            rw [List.length_drop]
            rw [List.length_cons] at hfuel ⊢
            omega
          rw [chunksFor, List.flatten_cons, ih hrest, List.take_append_drop]
          exact List.cons_ne_nil x r

theorem mem_batches {keys batch : List String} (h : batch ∈ batches keys) :
    batch ≠ [] ∧ batch.length ≤ maxDeleteKeys :=
  mem_chunksFor (by decide) h

theorem flatten_batches (keys : List String) : (batches keys).flatten = keys :=
  flatten_chunksFor (by decide) (Nat.le_refl _)

/-! ## What is deleted -/

theorem deletes_deleteObjects {keys : List String} (hne : keys ≠ [])
    (hlength : keys.length ≤ maxDeleteKeys) :
    (Call.deleteObjects bucket keys).deletes = some keys := by
  obtain ⟨r, hr, -, hkeys⟩ := deletes_bulkDelete bucket hne hlength
  rw [Call.deleteObjects, hr]
  exact hkeys

theorem mapM_deletes {groups : List (List String)}
    (h : ∀ keys ∈ groups, keys ≠ [] ∧ keys.length ≤ maxDeleteKeys) :
    (groups.map (Call.deleteObjects bucket)).mapM Call.deletes = some groups := by
  induction groups with
  | nil => rfl
  | cons keys rest ih =>
      obtain ⟨hkeys, hrest⟩ := List.forall_mem_cons.1 h
      rw [List.map_cons, List.mapM_cons, deletes_deleteObjects hkeys.1 hkeys.2, ih hrest]
      rfl

/-! ## Turns -/

theorem turn_nil (recursive : Bool) (failed : Nat) :
    Removal.turn options ⟨recursive, [], failed⟩ =
      if failed = 0 then .stop else .fail (.notDeleted failed) := by
  rw [Removal.turn]

theorem turn_emptied (recursive : Bool) (groups : List Group) (failed : Nat) :
    Removal.turn options ⟨recursive, ⟨bucket, []⟩ :: groups, failed⟩ =
      Removal.turn options ⟨recursive, groups, failed⟩ := by
  rw [Removal.turn]

theorem turn_recursive (key : String) (keys : List String) (groups : List Group) (failed : Nat) :
    Removal.turn options ⟨true, ⟨bucket, key :: keys⟩ :: groups, failed⟩ =
      let rest : Removal := ⟨true, ⟨bucket, keys⟩ :: groups, failed⟩
      let s : Sweep := { bucket, keyPrefix := key, rest }
      .ask [.list options s.request] (.sweep s) := by
  rw [Removal.turn]
  rfl

theorem turn_group (key : String) (keys : List String) (groups : List Group) (failed : Nat) :
    Removal.turn options ⟨false, ⟨bucket, key :: keys⟩ :: groups, failed⟩ =
      if keys.isEmpty then .ask [.delete bucket key] (.removed bucket key ⟨false, groups, failed⟩)
      else
        .ask ((batches (key :: keys)).map (Call.deleteObjects bucket))
          (.removedAll bucket ⟨false, groups, failed⟩) := by
  rw [Removal.turn]
  rfl

/-- Where a removal comes to the keys of a bucket, a single key is deleted without the slashes at
its head, and several keys are deleted as they are. -/
theorem deletes_turn (key : String) (others : List String) (groups : List Group) (failed : Nat) :
    (Removal.turn options ⟨false, ⟨bucket, key :: others⟩ :: groups, failed⟩).deletes =
      some (if others.isEmpty then [trimmedKey key] else key :: others) := by
  rw [turn_group]
  split
  · simp [Turn.deletes, Turn.ask, Call.delete, Call.deletes, deletes_delete]
  · simp only [Turn.deletes, Turn.ask, mapM_deletes fun _ => mem_batches, Option.map_some,
      flatten_batches]

/-! ## One key alone and among others -/

/-- A bulk delete names the key that it is given, and the path of a single delete names the key
without the slashes at its head, alone and in a removal. So both name the same object just when the
key does not begin with a slash. -/
theorem delete_agrees_iff (bucket key : String) :
    ∃ bulk, bulkDelete bucket [key] = .ok bulk ∧ bulk.bucket = (delete bucket key).bucket ∧
      bulk.deletes = some [key] ∧ (delete bucket key).deletes = some [trimmedKey key] ∧
      ((delete bucket key).deletes = bulk.deletes ↔ key.toList.head? ≠ some '/') ∧
      ∀ options others groups failed,
        (Removal.turn options ⟨false, ⟨bucket, key :: others⟩ :: groups, failed⟩).deletes =
          some (if others.isEmpty then [trimmedKey key] else key :: others) := by
  obtain ⟨bulk, hbulk, hbucket, hkeys⟩ :=
    deletes_bulkDelete bucket (List.cons_ne_nil key []) (by simp [maxDeleteKeys])
  refine ⟨bulk, hbulk, hbucket, hkeys, deletes_delete bucket key, ?_,
    fun options others groups failed => deletes_turn key others groups failed⟩
  rw [hkeys, deletes_delete]
  simp only [Option.some.injEq, List.cons.injEq, and_true]
  exact trimmedKey_eq_self_iff

/-- The two deletes of a key with a slash at its head name different objects. -/
theorem delete_disagrees_leading :
    (delete "photos" "/leading").deletes = some ["leading"] ∧
      ¬∃ bulk, bulkDelete "photos" ["/leading"] = .ok bulk ∧
        (delete "photos" "/leading").deletes = bulk.deletes := by
  have hsingle : (delete "photos" "/leading").deletes = some ["leading"] := by
    rw [deletes_delete]
    decide
  refine ⟨hsingle, ?_⟩
  rintro ⟨bulk, hbulk, hsame⟩
  obtain ⟨other, hother, -, hkeys⟩ :=
    deletes_bulkDelete "photos" (List.cons_ne_nil "/leading" []) (by decide)
  cases hbulk.symm.trans hother
  rw [hsingle, hkeys] at hsame
  exact absurd hsame (by decide)

end CommandLine

end ObjectStore
