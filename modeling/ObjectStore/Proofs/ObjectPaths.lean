import Mathlib.Data.List.TakeWhile
import ObjectStore.Proofs.EscapedText
import ObjectStore.Proofs.NamedObjects
import ObjectStore.Request.KeyPath

/-!
# Paths of objects

The path of a key stands for this key without the slashes at its head and for no other, whether
the key had to be escaped or not.
-/

namespace ObjectStore

open Text

namespace Request

variable {a b key : String}

/-! ## Keys in paths -/

theorem isPathMark_ofNat {b : UInt8} (h : keepsInPath b = true) :
    isPathMark (Char.ofNat b.toNat) = true := by
  rcases Bool.or_eq_true _ _ ▸ h with h | h
  · rw [isPathMark, Percent.isUnreservedChar_ofNat h, Bool.true_or]
  · cases eq_of_beq h
    decide

/-- A key that needs no escape is written like any other one, byte after byte. -/
theorem toList_pathKey (key : String) :
    (pathKey key).toList = Percent.encodeList keepsInPath (Utf8.ofText key) := by
  rw [pathKey]
  split
  · next hall =>
      exact (Percent.encodeList_encode_of_all (fun b hb => (keepsInPath_ascii hb).1) hall).symm
  · exact String.toList_ofList

theorem objectPath_eq_pathKey (key : String) :
    objectPath key = "/" ++ pathKey (trimmedKey key) := by
  rw [← String.toList_inj, String.toList_append, toList_pathKey]
  simp only [objectPath, trimmedKey, Utf8.ofText, String.toList_ofList]
  rfl

/-! ## Slashes at the head -/

theorem toList_trimmedKey_of_slashes {n : Nat} {rest : List Char}
    (h : key.toList = List.replicate n '/' ++ rest) :
    (trimmedKey key).toList = rest.dropWhile (· == '/') := by
  rw [trimmedKey, String.toList_ofList, h]
  refine List.dropWhile_append_of_pos fun c hc => ?_
  rw [List.eq_of_mem_replicate hc]
  rfl

theorem exists_slashes (key : String) :
    ∃ n, key.toList = List.replicate n '/' ++ (trimmedKey key).toList := by
  have hslashes : ∀ c ∈ key.toList.takeWhile (· == '/'), c = '/' := by
    intro c hc
    simpa using List.mem_takeWhile_imp hc
  refine ⟨(key.toList.takeWhile (· == '/')).length, ?_⟩
  rw [← List.eq_replicate_of_mem hslashes, trimmedKey, String.toList_ofList,
    List.takeWhile_append_dropWhile]

theorem trimmedKey_eq_iff : trimmedKey a = trimmedKey b ↔ SameBehindSlashes a b := by
  constructor
  · intro h
    obtain ⟨m, ha⟩ := exists_slashes a
    obtain ⟨n, hb⟩ := exists_slashes b
    exact ⟨m, n, (trimmedKey a).toList, ha, h ▸ hb⟩
  · rintro ⟨m, n, rest, ha, hb⟩
    rw [← String.toList_inj, toList_trimmedKey_of_slashes ha, toList_trimmedKey_of_slashes hb]

/-! ## Paths -/

theorem objectPath_inj : objectPath a = objectPath b ↔ trimmedKey a = trimmedKey b := by
  constructor
  · intro h
    have hkeys := congrArg keyOfPath h
    rw [keyOfPath_objectPath, keyOfPath_objectPath] at hkeys
    exact Option.some.inj hkeys
  · intro h
    rw [objectPath_eq_pathKey, objectPath_eq_pathKey, h]

/-- The path of a key is a slash and the key without the slashes at its head, as it is or with its
bytes escaped. Nothing but unreserved characters, slashes and escapes is in it, it is decoded to the
bytes of this key, and no two keys have it that differ in more than the slashes at their heads. -/
theorem objectPath_unambiguous (key : String) :
    objectPath key = "/" ++ pathKey (trimmedKey key) ∧
      Percent.Escaped isPathMark (pathKey (trimmedKey key)).toList ∧
      Percent.decodeList (pathKey (trimmedKey key)).toList = Utf8.ofText (trimmedKey key) ∧
      ∀ other, objectPath other = objectPath key ↔ SameBehindSlashes other key := by
  refine ⟨objectPath_eq_pathKey key, ?_, ?_, fun other => objectPath_inj.trans trimmedKey_eq_iff⟩
  · rw [toList_pathKey]
    exact Percent.escaped_encodeList (fun b => isPathMark_ofNat) _
  · rw [toList_pathKey]
    exact Percent.decodeList_encodeList (fun b => keepsInPath_ascii) _

example : objectPath "//caf\u00e9 1/a" = "/caf%C3%A9%201/a" := by decide

end Request

end ObjectStore
