import ObjectStore.Proofs.DocumentParts
import ObjectStore.Proofs.PercentCodec
import ObjectStore.Request.Named

/-!
# Objects that are named by deletes

A path is decoded to the bytes of the key that it was made of, and the document of a bulk delete
is decoded to the keys that it was made of. The path is made without the slashes at the head of
the key, so that a single delete and a bulk delete name the same object just when there are none.
-/

namespace ObjectStore

open Text Xml

/-! ## Paths -/

namespace Request

theorem keepsInPath_ascii {b : UInt8} (h : keepsInPath b = true) :
    b.toNat < 0x80 ∧ b ≠ 0x25 := by
  rcases Bool.or_eq_true _ _ ▸ h with h | h
  · exact Percent.isUnreserved_ascii h
  · cases eq_of_beq h
    decide

/-- The path of a key names the key without the slashes at its head. -/
theorem keyOfPath_objectPath (key : String) :
    keyOfPath (objectPath key) = some (trimmedKey key) := by
  simp only [keyOfPath, objectPath, String.toList_ofList]
  rw [Percent.decodeList_encodeList fun b => keepsInPath_ascii, Utf8.decode_encode]
  rfl

/-! ## Documents -/

/-- An element without attributes and with its tags right around what is inside. -/
theorem bytes_element (name : List UInt8) (lead : List UInt8) (inner : List Segment) :
    (element name [] lead inner []).flatMap Segment.bytes =
      0x3C :: name ++ 0x3E :: lead ++ inner.flatMap Segment.bytes ++
        0x3C :: 0x2F :: name ++ [0x3E] := by
  simp [element, Segment.bytes, Markup.bytes, Markup.content]

/-- The element of one key. -/
def keySegments (key : String) : List Segment :=
  element (Utf8.ofText "Object") [] []
    (element (Utf8.ofText "Key") [] (Utf8.encode (Reference.escape key.toList)) [] []) []

theorem bytes_keySegments (key : String) :
    (keySegments key).flatMap Segment.bytes = Utf8.encode (keyElement key) := by
  have hopen : Utf8.encode "<Object><Key>".toList =
      [0x3C] ++ Utf8.ofText "Object" ++ [0x3E, 0x3C] ++ Utf8.ofText "Key" ++ [0x3E] := by
    decide +kernel
  have hclose : Utf8.encode "</Key></Object>".toList =
      [0x3C, 0x2F] ++ Utf8.ofText "Key" ++ [0x3E, 0x3C, 0x2F] ++ Utf8.ofText "Object" ++
        [0x3E] := by
    decide +kernel
  unfold keyElement
  rw [keySegments, bytes_element, bytes_element, Utf8.encode_append, Utf8.encode_append]
  simp only [hopen, hclose, List.append_assoc, List.cons_append, List.nil_append,
    List.flatMap_nil]

/-- The parts of the document of a bulk delete. -/
def deletePassage (keys : List String) : Passage where
  segments := [⟨.instruction (Utf8.ofText "xml version=\"1.0\" encoding=\"UTF-8\""), []⟩] ++
    element (Utf8.ofText "Delete") [] [] (keys.flatMap keySegments) []

theorem bytes_deletePassage (keys : List String) :
    (deletePassage keys).bytes = Utf8.encode (deleteDocument keys) := by
  have hopen : Utf8.encode "<?xml version=\"1.0\" encoding=\"UTF-8\"?><Delete>".toList =
      [0x3C, 0x3F] ++ Utf8.ofText "xml version=\"1.0\" encoding=\"UTF-8\"" ++
        [0x3F, 0x3E, 0x3C] ++ Utf8.ofText "Delete" ++ [0x3E] := by
    decide +kernel
  have hclose : Utf8.encode "</Delete>".toList =
      [0x3C, 0x2F] ++ Utf8.ofText "Delete" ++ [0x3E] := by
    decide +kernel
  have hkeys : (keys.flatMap keySegments).flatMap Segment.bytes =
      Utf8.encode (keys.flatMap keyElement) := by
    rw [List.flatMap_assoc, Utf8.encode, List.flatMap_assoc]
    exact congrArg (keys.flatMap ·) (funext bytes_keySegments)
  unfold deleteDocument
  rw [deletePassage, Passage.bytes, List.flatMap_append, bytes_element, hkeys,
    Utf8.encode_append, Utf8.encode_append]
  simp only [hopen, hclose, List.flatMap_cons, List.flatMap_nil, Segment.bytes, Markup.bytes,
    Markup.content, List.append_assoc, List.cons_append, List.nil_append, List.append_nil]

theorem find_keyTable :
    keyTable.find (localName (Utf8.ofText "Delete")) = .other ∧
      keyTable.find (localName (Utf8.ofText "Object")) = .other ∧
      keyTable.find (localName (Utf8.ofText "Key")) = .key := by
  decide +kernel

theorem balanced_keySegments (key : String) : Balanced (keySegments key) :=
  (Balanced.nil.element (by decide +kernel) rfl (bracket_not_mem_escape key) (by simp)).element
    (by decide +kernel) rfl (by simp) (by simp)

/-- The elements of a key bring the key. -/
theorem builds_keySegments (stack : Stack DeleteTag) (keys : List String) (key : String) :
    Builds keyHandling keyTable stack ((keySegments key).flatMap Segment.tokens) keys
      (keys ++ [key]) := by
  obtain ⟨-, hobject, hkey⟩ := find_keyTable
  refine Builds.element hobject rfl ?_ rfl Builds.nil
  refine Builds.element hkey rfl ?_ rfl Builds.nil
  rw [List.flatMap_nil, List.append_nil]
  refine Builds.text rfl (Decoding.textOf_escape key) (fun h => ?_) fun _ => ?_
  · rw [escape_eq_nil h]
  · simp [keyHandling]

/-- The document of a bulk delete is decoded to what its root and the elements of its keys come
to. -/
theorem decode_deleteDocument {H C : Type} {handling : Handling H C} {table : Table H}
    {keys : List String} {u v w x : C} {h : H}
    (hfind : table.find (localName (Utf8.ofText "Delete")) = h)
    (hstart : handling.onStart h u = (v, none))
    (hkeys : Builds handling table (Stack.empty.push h)
      ((keys.flatMap keySegments).flatMap Segment.tokens) v w)
    (hend : handling.onEnd h w = (x, none)) :
    Xml.decode handling table (Utf8.encode (deleteDocument keys)) u = .ok x := by
  have hprolog : ∀ s ∈ [Segment.mk
      (.instruction (Utf8.ofText "xml version=\"1.0\" encoding=\"UTF-8\"")) []],
      s.IsSound ∧ s.markup.token? = none := by
    decide +kernel
  have hroot : Balanced (element (Utf8.ofText "Delete") [] [] (keys.flatMap keySegments) []) :=
    (Balanced.flatMap fun key _ => balanced_keySegments key).element (by decide +kernel) rfl
      (by simp) (by simp)
  rw [← bytes_deletePassage]
  exact decode_document (by simp) (by simp) hprolog hroot hfind hstart hkeys hend

/-- The document of a bulk delete holds the keys that it was made of. -/
theorem keysOfDocument_deleteDocument (keys : List String) :
    keysOfDocument (Utf8.encode (deleteDocument keys)) = .ok keys := by
  have hkeys : Builds keyHandling keyTable (Stack.empty.push .other)
      ((keys.flatMap keySegments).flatMap Segment.tokens) (id [])
      (id (keys.foldl (fun found key => found ++ [key]) [])) :=
    Builds.flatMap fun key _ found => builds_keySegments _ found key
  have hfound : keys.foldl (fun found key => found ++ [key]) [] = keys := by
    simp [← List.flatMap_def]
  exact (decode_deleteDocument find_keyTable.1 rfl hkeys rfl).trans (congrArg Except.ok hfound)

/-! ## Deletes -/

theorem of_bulkDelete {bucket : String} {keys : List String} {bulk : Request}
    (h : bulkDelete bucket keys = .ok bulk) :
    bulk.operation = .bulkDelete ∧ keys ≠ [] ∧ keys.length ≤ maxDeleteKeys := by
  unfold bulkDelete at h
  split at h
  · cases h
  · next hne =>
      split at h
      · cases h
      · next hlength =>
          cases h
          exact ⟨rfl, by simpa using hne, by omega⟩

/-- A bulk delete of one to a thousand keys deletes these keys. -/
theorem deletes_bulkDelete (bucket : String) {keys : List String} (hne : keys ≠ [])
    (hlength : keys.length ≤ maxDeleteKeys) :
    ∃ r, bulkDelete bucket keys = .ok r ∧ r.bucket = bucket ∧ r.deletes = some keys := by
  have hempty : ¬keys.isEmpty = true := by simpa using hne
  refine ⟨_, by rw [bulkDelete, if_neg hempty, if_neg (by omega)], rfl, ?_⟩
  simp only [deletes, keysOfDocument_deleteDocument, Except.toOption]

/-- A single delete deletes the object of the key without the slashes at its head. -/
theorem deletes_delete (bucket key : String) :
    (delete bucket key).deletes = some [trimmedKey key] := by
  simp only [deletes, delete, keyOfPath_objectPath, Option.map_some]

theorem trimmedKey_eq_self_iff {key : String} :
    trimmedKey key = key ↔ key.toList.head? ≠ some '/' := by
  rw [trimmedKey, ← String.toList_inj, String.toList_ofList]
  cases key.toList with
  | nil => simp
  | cons c r =>
      by_cases hc : c = '/'
      · subst hc
        have hshorter := (List.dropWhile_sublist (l := r) (· == '/')).length_le
        refine iff_of_false (fun h => ?_) (by simp)
        have hlength := congrArg List.length h
        rw [List.dropWhile_cons_of_pos (by simp), List.length_cons] at hlength
        omega
      · simp [hc]

end Request

end ObjectStore
