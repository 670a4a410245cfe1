import ObjectStore.Proofs.NamedObjects
import ObjectStore.Request.Carried

/-!
# Bulk deletes carry their keys

The document of a bulk delete is escaped once and read once, so that its keys come back as they
are, in their order, with nothing in between. Only one to a thousand keys are taken.
-/

namespace ObjectStore.Request

open Text Xml

variable {H : Type} {table : Table H}

/-- The element of a key has the handlers called for the key. -/
theorem builds_keyVisits (table : Table H) (found : List (Visit H)) (key : String) :
    Builds recording table (Stack.empty.push (table.find (Utf8.ofText "Delete")))
      ((keySegments key).flatMap Segment.tokens) found (found ++ keyVisits table key) := by
  have hobject : table.find (localName (Utf8.ofText "Object")) =
      table.find (Utf8.ofText "Object") := congrArg table.find (by decide)
  have hname : table.find (localName (Utf8.ofText "Key")) = table.find (Utf8.ofText "Key") :=
    congrArg table.find (by decide)
  unfold keyVisits
  generalize table.find (Utf8.ofText "Delete") = root
  generalize table.find (Utf8.ofText "Object") = object at hobject ⊢
  generalize table.find (Utf8.ofText "Key") = name at hname ⊢
  have hcalls (text : List (Visit H)) :
      found ++ ([.entered object, .entered name] ++ text ++ [.left name, .left object]) =
        found ++ [.entered object] ++ [.entered name] ++ text ++ [.left name] ++
          [.left object] := by
    simp
  rw [hcalls]
  apply Builds.element hobject rfl _ rfl Builds.nil
  apply Builds.element hname rfl _ rfl Builds.nil
  rw [List.flatMap_nil, List.append_nil]
  apply Builds.text rfl (Decoding.textOf_escape key)
  · intro hempty
    rw [if_pos (escape_eq_nil hempty), List.append_nil]
  · intro hraw
    have hkey : key ≠ "" := by
      rintro rfl
      exact hraw rfl
    rw [if_neg hkey]
    rfl

/-- The document of a bulk delete has any handlers called for its keys in turn. -/
theorem visits_deleteDocument (table : Table H) (keys : List String) :
    visits table (Utf8.encode (deleteDocument keys)) = .ok (deleteVisits table keys) := by
  have hroot : localName (Utf8.ofText "Delete") = Utf8.ofText "Delete" := by decide
  have hkeys : Builds recording table (Stack.empty.push (table.find (Utf8.ofText "Delete")))
      ((keys.flatMap keySegments).flatMap Segment.tokens)
      (id [.entered (table.find (Utf8.ofText "Delete"))])
      (id (keys.foldl (fun found key => found ++ keyVisits table key)
        [.entered (table.find (Utf8.ofText "Delete"))])) :=
    Builds.flatMap fun key _ found => builds_keyVisits table found key
  refine (decode_deleteDocument (congrArg table.find hroot) rfl hkeys rfl).trans ?_
  rw [id, List.foldl_append_eq_append, ← List.flatMap_def]
  rfl

/-- A bulk delete is made of one to a thousand keys and carries just these keys, and of no other
number of keys. -/
theorem bulkDelete_carries (bucket : String) (keys : List String) :
    if 0 < keys.length ∧ keys.length ≤ maxDeleteKeys then
      ∃ r, bulkDelete bucket keys = .ok r ∧ r.Carries bucket keys
    else ∃ reason, bulkDelete bucket keys = .error (.invalidRequest reason) := by
  have hempty : keys.isEmpty = true ↔ ¬0 < keys.length := by
    cases keys <;> simp
  rw [bulkDelete]
  split
  · next hkeys =>
      rw [if_neg (mt hempty.1 (not_not_intro hkeys.1)), if_neg (Nat.not_lt.2 hkeys.2)]
      exact ⟨_, rfl, rfl, rfl, keysOfDocument_deleteDocument keys,
        fun table => visits_deleteDocument table keys, rfl⟩
  · next hkeys =>
      by_cases hnone : keys.isEmpty = true
      · exact ⟨_, if_pos hnone⟩
      · have hsome : 0 < keys.length := Decidable.not_not.1 (mt hempty.2 hnone)
        have hmany : maxDeleteKeys < keys.length := Nat.not_le.1 fun hle => hkeys ⟨hsome, hle⟩
        rw [if_neg hnone, if_pos hmany]
        exact ⟨_, rfl⟩

end ObjectStore.Request
