import ObjectStore.Proofs.DecimalText
import ObjectStore.Signature

/-!
# The signed text is unambiguous

A signed text is one string, in which verb, checksum, type, date, session token, bucket and resource
stand one after the other. Each of them can be read back: the first ones and the token end at a line
feed, which none of them holds, the line of a token begins with a letter where the bucket begins
with a slash, and the bucket ends at the slash with which each resource begins.
-/

namespace ObjectStore

open Text

namespace Text

/-- What stands before the first occurrence of a mark, and what stands behind it. -/
theorem parts_of_mark {mark : Char} {l l' r r' : List Char}
    (h : l ++ mark :: r = l' ++ mark :: r') (hl : mark ∉ l) (hl' : mark ∉ l') :
    l = l' ∧ r = r' := by
  induction l generalizing l' with
  | nil =>
      cases l' with
      | nil => exact ⟨rfl, (List.cons.inj h).2⟩
      | cons c s => exact absurd ((List.cons.inj h).1 ▸ List.mem_cons_self) hl'
  | cons c s ih =>
      cases l' with
      | nil => exact absurd ((List.cons.inj h).1.symm ▸ List.mem_cons_self) hl
      | cons c' s' =>
          obtain ⟨rfl, hrest⟩ := List.cons.inj h
          obtain ⟨rfl, hr⟩ := ih hrest (List.not_mem_of_not_mem_cons hl)
            (List.not_mem_of_not_mem_cons hl')
          exact ⟨rfl, hr⟩

end Text

/-! ## Dates without line feeds -/

namespace Text.Decimal

theorem lineFeed_not_mem_fixed (width n : Nat) : '\n' ∉ fixed width n := by
  have hdigit : ∀ m < 10, Char.ofNat (48 + m) ≠ '\n' := by decide
  induction width generalizing n with
  | zero => exact List.not_mem_nil
  | succ width ih =>
      rw [fixed, List.mem_append, List.mem_singleton]
      rintro (h | h)
      · exact ih (n / 10) h
      · exact hdigit (n % 10) (Nat.mod_lt n (by decide)) h.symm

theorem lineFeed_not_mem_padded (width n : Nat) : '\n' ∉ padded width n := by
  rw [padded, List.mem_append]
  rintro (h | h)
  · exact absurd (List.eq_of_mem_replicate h) (by decide)
  · exact absurd (isDigit_toString h) (by decide)

end Text.Decimal

namespace Calendar

open Text.Decimal

theorem lineFeed_not_mem_yearText (year : Int) : '\n' ∉ yearText year := by
  unfold yearText
  split
  · exact List.not_mem_cons_of_ne_of_not_mem (by decide) (lineFeed_not_mem_padded 4 _)
  split
  · exact lineFeed_not_mem_fixed 4 _
  · exact List.not_mem_cons_of_ne_of_not_mem (by decide) (lineFeed_not_mem_padded 4 _)

theorem TimeOfDay.lineFeed_not_mem_text (t : TimeOfDay) : '\n' ∉ t.text := by
  simp [text, lineFeed_not_mem_fixed]

/-- A name of a list, or none. -/
theorem lineFeed_not_mem_getD (names : List String) (h : ∀ s ∈ names, '\n' ∉ s.toList) (n : Nat) :
    '\n' ∉ (names.getD n "").toList := by
  rw [List.getD_eq_getElem?_getD]
  cases hn : names[n]? with
  | none => simp
  | some s => exact h s (List.mem_of_getElem? hn)

/-- The date of a request header is a single line. -/
theorem Instant.lineFeed_not_mem_headerText (t : Instant) : '\n' ∉ t.headerText.toList := by
  have hweekday := lineFeed_not_mem_getD weekdayNames (by decide) (weekday t.days)
  have hmonth := lineFeed_not_mem_getD monthNames (by decide) (t.date.month - 1)
  have hday := lineFeed_not_mem_fixed 2 t.date.day
  have hyear := lineFeed_not_mem_yearText t.date.year
  have htime := t.time.lineFeed_not_mem_text
  simp only [headerText, String.toList_append, String.toList_ofList, List.mem_append, not_or]
  exact ⟨⟨⟨⟨⟨⟨⟨⟨⟨hweekday, by decide⟩, hday⟩, by decide⟩, hmonth⟩, by decide⟩, hyear⟩,
    by decide⟩, htime⟩, by decide⟩

end Calendar

/-! ## What is signed -/

/-- Each resource that is signed begins with a slash. -/
theorem Operation.exists_resource_eq (op : Operation) (target : List Char) :
    ∃ r, op.resource target = '/' :: r := by
  have hobject : ∃ r, objectResource target = '/' :: r := by
    simp only [objectResource]
    split
    · next h => exact ⟨_, List.head?_eq_some_iff.1 h |>.choose_spec⟩
    · exact ⟨_, rfl⟩
  obtain ⟨r, hr⟩ := hobject
  cases op with
  | list => exact ⟨[], rfl⟩
  | get | put | delete => exact ⟨r, hr⟩
  | bulkDelete =>
      refine ⟨r ++ "?delete".toList, ?_⟩
      rw [resource, hr, List.cons_append]

/-- What a signature vouches for. -/
structure SignedParts where
  verb : String
  contentMd5 : String
  contentType : String
  date : String
  token : Option String
  bucket : String
  resource : List Char
  deriving Repr, DecidableEq

namespace SigningInput

/-- What is signed of a request with some credentials at an instant. -/
def parts (input : SigningInput) (credentials : Credentials) (now : Calendar.Instant) :
    SignedParts :=
  ⟨input.operation.verb, input.contentMd5, input.contentType, now.headerText,
    credentials.sessionToken, input.bucket, input.operation.resource input.target.toList⟩

/-- The text that is signed for a request with some credentials at an instant. -/
def text (input : SigningInput) (credentials : Credentials) (now : Calendar.Instant) :
    List Char :=
  input.stringToSign credentials.sessionToken now.headerText

/-- Checksum, type and token can be header values, which hold no line feed, and the bucket is a
name without a slash. -/
structure Sendable (input : SigningInput) (credentials : Credentials) : Prop where
  contentMd5 : '\n' ∉ input.contentMd5.toList
  contentType : '\n' ∉ input.contentType.toList
  token : ∀ token ∈ credentials.sessionToken, '\n' ∉ token.toList
  bucket : '/' ∉ input.bucket.toList

theorem lineFeed_not_mem_verb (op : Operation) : '\n' ∉ op.verb.toList := by
  cases op <;> decide

theorem tokenLine_append (token : String) (r : List Char) :
    tokenLine (some token) ++ r =
      "x-amz-security-token:".toList ++ (token.toList ++ '\n' :: r) := by
  unfold tokenLine
  generalize "x-amz-security-token:".toList = name
  simp

/-- The line of a token begins with a letter. -/
theorem exists_tokenLine_eq (token : String) : ∃ r, tokenLine (some token) = 'x' :: r := by
  have hname : "x-amz-security-token:".toList = 'x' :: "-amz-security-token:".toList := by simp
  have hline := tokenLine_append token []
  rw [List.append_nil, hname, List.cons_append] at hline
  exact ⟨_, hline⟩

/-- The line of a token, or no line, and what stands behind it, which begins with a slash. -/
theorem parts_of_tokenLine {s t : Option String} {r r' : List Char}
    (h : tokenLine s ++ '/' :: r = tokenLine t ++ '/' :: r')
    (hs : ∀ token ∈ s, '\n' ∉ token.toList) (ht : ∀ token ∈ t, '\n' ∉ token.toList) :
    s = t ∧ r = r' := by
  cases s with
  | none =>
      cases t with
      | none => exact ⟨rfl, (List.cons.inj h).2⟩
      | some token =>
          obtain ⟨line, hline⟩ := exists_tokenLine_eq token
          rw [hline] at h
          exact absurd (List.cons.inj h).1 (by decide)
  | some token =>
      cases t with
      | none =>
          obtain ⟨line, hline⟩ := exists_tokenLine_eq token
          rw [hline] at h
          exact absurd (List.cons.inj h).1 (by decide)
      | some token' =>
          rw [tokenLine_append, tokenLine_append] at h
          have hline := List.append_cancel_left h
          obtain ⟨htoken, hrest⟩ := parts_of_mark hline (hs token rfl) (ht token' rfl)
          exact ⟨congrArg some (String.toList_inj.1 htoken), (List.cons.inj hrest).2⟩

/-- A text that is signed determines what it vouches for. -/
theorem parts_eq_of_text_eq {a b : SigningInput} {c d : Credentials}
    {now later : Calendar.Instant} (ha : a.Sendable c) (hb : b.Sendable d)
    (h : a.text c now = b.text d later) : a.parts c now = b.parts d later := by
  obtain ⟨r, hr⟩ := a.operation.exists_resource_eq a.target.toList
  obtain ⟨r', hr'⟩ := b.operation.exists_resource_eq b.target.toList
  simp only [text, stringToSign, hr, hr', List.append_assoc, List.cons_append] at h
  obtain ⟨hverb, h⟩ := parts_of_mark h (lineFeed_not_mem_verb _) (lineFeed_not_mem_verb _)
  obtain ⟨hmd5, h⟩ := parts_of_mark h ha.contentMd5 hb.contentMd5
  obtain ⟨htype, h⟩ := parts_of_mark h ha.contentType hb.contentType
  obtain ⟨hdate, h⟩ := parts_of_mark h now.lineFeed_not_mem_headerText
    later.lineFeed_not_mem_headerText
  obtain ⟨htoken, h⟩ := parts_of_tokenLine h ha.token hb.token
  obtain ⟨hbucket, hresource⟩ := parts_of_mark h ha.bucket hb.bucket
  simp only [parts, hr, hr', hresource, String.toList_inj.1 hverb, String.toList_inj.1 hmd5,
    String.toList_inj.1 htype, String.toList_inj.1 hdate, htoken, String.toList_inj.1 hbucket]

/-- What is signed determines the text. -/
theorem text_eq_of_parts_eq {a b : SigningInput} {c d : Credentials}
    {now later : Calendar.Instant} (h : a.parts c now = b.parts d later) :
    a.text c now = b.text d later := by
  simp only [parts, SignedParts.mk.injEq] at h
  obtain ⟨hverb, hmd5, htype, hdate, htoken, hbucket, hresource⟩ := h
  simp only [text, stringToSign, hverb, hmd5, htype, hdate, htoken, hbucket, hresource]

/-- Two texts that differ and have the same digest under a key. -/
def Collides (secretKey : String) (s t : List Char) : Prop :=
  s ≠ t ∧ digest secretKey s = digest secretKey t

/-- Two signed texts are equal just when verb, checksum, type, date, session token, bucket and
resource are. So one signature stands for two requests that differ in one of these only if their
texts collide under the digest. -/
theorem text_unambiguous {a b : SigningInput} {c d : Credentials} {now later : Calendar.Instant}
    (ha : a.Sendable c) (hb : b.Sendable d) :
    (a.text c now = b.text d later ↔ a.parts c now = b.parts d later) ∧
      ∀ secretKey, digest secretKey (a.text c now) = digest secretKey (b.text d later) →
        a.parts c now = b.parts d later ∨ Collides secretKey (a.text c now) (b.text d later) := by
  constructor
  · constructor
    · exact parts_eq_of_text_eq ha hb
    · exact text_eq_of_parts_eq
  · intro secretKey hdigest
    by_cases htext : a.text c now = b.text d later
    · exact Or.inl (parts_eq_of_text_eq ha hb htext)
    · exact Or.inr ⟨htext, hdigest⟩

/-- A download with a session token. -/
def download : SigningInput where
  operation := .get
  target := "/photos/puppy.jpg"
  bucket := "johnsmith"

/-- The same download, with a query that is not signed. -/
def downloadQuery : SigningInput := { download with target := "/photos/puppy.jpg?x=1" }

/-- Temporary credentials. -/
def temporary : Credentials :=
  { accessKey := "key", secretKey := "secret", sessionToken := some "session-token" }

/-- The two downloads have the same signed text, for the query is not signed. -/
theorem text_unambiguous_download :
    download.Sendable temporary ∧ downloadQuery.Sendable temporary ∧
      download.text temporary ⟨0, 0⟩ = downloadQuery.text temporary ⟨0, 0⟩ ∧
      (download.text temporary ⟨0, 0⟩ = downloadQuery.text temporary ⟨0, 0⟩ ↔
        download.parts temporary ⟨0, 0⟩ = downloadQuery.parts temporary ⟨0, 0⟩) ∧
      ∀ secretKey, digest secretKey (download.text temporary ⟨0, 0⟩) =
          digest secretKey (downloadQuery.text temporary ⟨0, 0⟩) →
        download.parts temporary ⟨0, 0⟩ = downloadQuery.parts temporary ⟨0, 0⟩ ∨
          Collides secretKey (download.text temporary ⟨0, 0⟩)
            (downloadQuery.text temporary ⟨0, 0⟩) := by
  have hdownload : download.Sendable temporary := by constructor <;> decide
  have hquery : downloadQuery.Sendable temporary := by constructor <;> decide
  refine ⟨hdownload, hquery, ?_, text_unambiguous hdownload hquery⟩
  apply text_eq_of_parts_eq
  decide

end SigningInput

end ObjectStore
