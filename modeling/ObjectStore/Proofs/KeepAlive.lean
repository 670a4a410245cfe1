import Mathlib.Data.List.Basic
import ObjectStore.Http.Connection
import ObjectStore.Proofs.Utf8Codec

/-!
# Connections that stay open

A connection stays open by what the `Connection` fields of a response say, in whatever order they
come and however their words are spread over them.
-/

namespace ObjectStore.Http

open Text

variable {r s : Response} {word : String} {parts : List FieldPart}

/-! ## Words of fields -/

theorem Response.says_iff :
    r.Says word ↔ ∃ w ∈ r.connectionWords, sameWord w word.toList = true := by
  simp only [Says, Header.Says, connectionWords, List.mem_flatMap, List.mem_filterMap,
    List.mem_filter, beq_iff_eq, List.mem_map]
  constructor
  · rintro ⟨h, hmem, hname, value, hvalue, part, hpart, hsame⟩
    exact ⟨_, ⟨value, ⟨h, ⟨hmem, hname⟩, hvalue⟩, part, hpart, rfl⟩, hsame⟩
  · rintro ⟨_, ⟨value, ⟨h, ⟨hmem, hname⟩, hvalue⟩, part, hpart, rfl⟩, hsame⟩
    exact ⟨h, hmem, hname, value, hvalue, part, hpart, hsame⟩

/-! ## Reading -/

/-- The reading stops at a `close`, but it would come to the same if it went on. -/
theorem keepAliveFrom_eq_true_iff {keep : Bool} {words : List (List Char)} :
    Response.keepAliveFrom keep words = true ↔
      (¬∃ w ∈ words, sameWord w "close".toList = true) ∧
        (keep = true ∨ ∃ w ∈ words, sameWord w "keep-alive".toList = true) := by
  induction words generalizing keep with
  | nil => simp [Response.keepAliveFrom]
  | cons w rest ih =>
      rw [Response.keepAliveFrom]
      by_cases hclose : sameWord w "close".toList = true
      · rw [if_pos hclose]
        exact iff_of_false Bool.false_ne_true fun h => h.1 ⟨w, List.mem_cons_self, hclose⟩
      · rw [if_neg hclose, ih, Bool.or_eq_true, List.exists_mem_cons_iff,
          List.exists_mem_cons_iff, or_iff_right hclose, or_assoc]

theorem Version.isPersistent_iff (v : Version) : v.isPersistent = true ↔ .v11 ≤ v := by
  cases v <;> decide

theorem Response.keepAlive_iff :
    r.keepAlive = true ↔ ¬r.Says "close" ∧ (r.Says "keep-alive" ∨ .v11 ≤ r.version) := by
  rw [keepAlive, keepAliveFrom_eq_true_iff, says_iff, says_iff, Version.isPersistent_iff,
    or_comm (a := Version.v11 ≤ r.version)]

/-- Responses that say the same keep their connections open alike. -/
theorem Response.keepAlive_eq (hversion : s.version = r.version)
    (hclose : s.Says "close" ↔ r.Says "close")
    (hkeep : s.Says "keep-alive" ↔ r.Says "keep-alive") : s.keepAlive = r.keepAlive := by
  rw [Bool.eq_iff_iff, keepAlive_iff, keepAlive_iff, hversion, hclose, hkeep]

/-! ## Fields that are written -/

theorem char_of_isFieldChar {c : Char} (h : isFieldChar c = true) :
    Char.ofNat c.toNat.toUInt8.toNat = c ∧ Header.isReadableByte c.toNat.toUInt8 = true := by
  obtain ⟨hbyte, hascii⟩ := Bool.and_eq_true_iff.1 h
  have hascii : c.toNat < 0x80 := by simpa using hascii
  rw [Utf8.toNat_toUInt8 (by omega), Char.ofNat_toNat]
  exact ⟨rfl, hbyte⟩

theorem isFieldChar_of_mem (parts : List FieldPart) :
    ∀ c ∈ [','].intercalate (parts.map FieldPart.chars), isFieldChar c = true := by
  induction parts with
  | nil => simp
  | cons part rest ih =>
      cases rest with
      | nil => simpa using part.readable
      | cons next rest =>
          rw [List.map_cons, List.map_cons, List.intercalate_cons_cons]
          simp only [List.mem_append, List.mem_singleton]
          rintro c ((hc | rfl) | hc)
          · exact part.readable c hc
          · decide
          · exact ih c hc

/-- A written field is read as it was put together. -/
theorem readable?_connectionField (parts : List FieldPart) :
    (connectionField parts).readable? =
      some (String.ofList ([','].intercalate (parts.map FieldPart.chars))) := by
  have hchars := isFieldChar_of_mem parts
  have hvalue : ∀ b ∈ (connectionField parts).value, Header.isReadableByte b = true := by
    intro b hb
    obtain ⟨c, hc, rfl⟩ := List.mem_map.1 hb
    exact (char_of_isFieldChar (hchars c hc)).2
  have htext : (connectionField parts).value.map (fun b => Char.ofNat b.toNat) =
      [','].intercalate (parts.map FieldPart.chars) := by
    rw [connectionField, List.map_map]
    exact (List.map_congr_left fun c hc => (char_of_isFieldChar (hchars c hc)).1).trans
      (List.map_id' _)
  rw [Header.readable?, if_pos (List.all_eq_true.2 hvalue), htext]

/-- A written field says the words that it was made of. Without parts it says the empty word. -/
theorem says_connectionField (hword : sameWord [] word.toList = false) :
    (connectionField parts).Says word ↔
      ∃ part ∈ parts, sameWord (stripList isBlank part.chars) word.toList = true := by
  have hparts : ∀ part ∈ parts.map FieldPart.chars, ',' ∉ part := by
    intro part hpart
    obtain ⟨p, -, rfl⟩ := List.mem_map.1 hpart
    exact p.whole
  have hname : (connectionField parts).name = "connection" := rfl
  simp only [Header.Says, readable?_connectionField, Option.some.injEq, exists_eq_left',
    String.toList_ofList, hname, true_and]
  cases parts with
  | nil => simpa [stripList] using hword
  | cons part rest =>
      rw [List.splitOn_intercalate ',' hparts (by simp)]
      simp only [List.mem_map]
      constructor
      · rintro ⟨_, ⟨part, hpart, rfl⟩, hsame⟩
        exact ⟨part, hpart, hsame⟩
      · rintro ⟨part, hpart, hsame⟩
        exact ⟨_, ⟨part, hpart, rfl⟩, hsame⟩

theorem Response.says_of_perm {fields : List (List FieldPart)} {others : List Header}
    (hword : sameWord [] word.toList = false)
    (hheaders : r.headers.Perm (fields.map connectionField ++ others)) :
    r.Says word ↔
      (∃ part ∈ fields.flatten, sameWord (stripList isBlank part.chars) word.toList = true) ∨
        ∃ h ∈ others, h.Says word := by
  simp only [Says, hheaders.mem_iff, List.mem_append, or_and_right, exists_or, List.mem_map,
    List.mem_flatten]
  refine or_congr_left ?_
  constructor
  · rintro ⟨_, ⟨parts, hparts, rfl⟩, hsays⟩
    obtain ⟨part, hpart, hsame⟩ := (says_connectionField hword).1 hsays
    exact ⟨part, ⟨parts, hparts, hpart⟩, hsame⟩
  · rintro ⟨part, ⟨parts, hparts, hpart⟩, hsame⟩
    exact ⟨_, ⟨parts, hparts, rfl⟩, (says_connectionField hword).2 ⟨part, hpart, hsame⟩⟩

/-- A response keeps its connection open unless a field says `close`, if one says `keep-alive` or if
its version is 1.1 or a later one. Only the words count: not their order, and not over which fields
and how many they are spread. -/
theorem Response.keepAlive_of_words (r : Response) :
    (r.keepAlive = true ↔ ¬r.Says "close" ∧ (r.Says "keep-alive" ∨ .v11 ≤ r.version)) ∧
    (∀ s : Response, s.version = r.version → s.connectionWords.Perm r.connectionWords →
      s.keepAlive = r.keepAlive) ∧
    ∀ (s : Response) (others : List Header) (fields spread : List (List FieldPart)),
      s.version = r.version → r.headers.Perm (fields.map connectionField ++ others) →
      s.headers.Perm (spread.map connectionField ++ others) →
      spread.flatten.Perm fields.flatten → s.keepAlive = r.keepAlive := by
  refine ⟨keepAlive_iff, fun s hversion hwords => ?_,
    fun s others fields spread hversion hfields hspread hparts => ?_⟩
  · refine keepAlive_eq hversion ?_ ?_
    · simp only [says_iff, hwords.mem_iff]
    · simp only [says_iff, hwords.mem_iff]
  · refine keepAlive_eq hversion ?_ ?_
    · rw [says_of_perm (by decide) hspread, says_of_perm (by decide) hfields]
      simp only [hparts.mem_iff]
    · rw [says_of_perm (by decide) hspread, says_of_perm (by decide) hfields]
      simp only [hparts.mem_iff]

/-- A protocol to change to, as a word of a field. -/
def upgrade : FieldPart := ⟨"Upgrade".toList, List.all_eq_true.1 (by decide), by decide⟩

/-- The wish to stay, in other letters and with blanks around it. -/
def stay : FieldPart := ⟨" Keep-Alive\t".toList, List.all_eq_true.1 (by decide), by decide⟩

/-- An answer of version 1.0 whose words stand in given fields, beside a field that is not
readable. -/
def upgradeResponse (fields : List (List FieldPart)) : Response where
  status := 200
  version := .v10
  headers := ⟨"connection", [0xFF]⟩ :: fields.map connectionField

theorem keepAlive_of_words_upgrade :
    (upgradeResponse [[stay, upgrade]]).connectionWords.Perm
        (upgradeResponse [[upgrade, stay]]).connectionWords ∧
      [[stay], [upgrade]].flatten.Perm [[upgrade, stay]].flatten ∧
      (upgradeResponse [[stay, upgrade]]).keepAlive =
        (upgradeResponse [[upgrade, stay]]).keepAlive ∧
      (upgradeResponse [[stay], [upgrade]]).keepAlive =
        (upgradeResponse [[upgrade, stay]]).keepAlive ∧
      (upgradeResponse [[upgrade, stay]]).keepAlive = true := by
  have hwords : (upgradeResponse [[stay, upgrade]]).connectionWords.Perm
      (upgradeResponse [[upgrade, stay]]).connectionWords := by decide +kernel
  have hparts : [[stay], [upgrade]].flatten.Perm [[upgrade, stay]].flatten := .swap upgrade stay []
  have hheaders : ∀ fields, (upgradeResponse fields).headers.Perm
      (fields.map connectionField ++ [⟨"connection", [0xFF]⟩]) := fun fields =>
    (List.perm_append_singleton _ _).symm
  obtain ⟨-, hordered, hspread⟩ := (upgradeResponse [[upgrade, stay]]).keepAlive_of_words
  exact ⟨hwords, hparts, hordered _ rfl hwords,
    hspread _ _ _ _ rfl (hheaders _) (hheaders _) hparts, by decide +kernel⟩

end ObjectStore.Http
