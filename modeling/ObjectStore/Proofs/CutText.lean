import ObjectStore.Listing.Document
import ObjectStore.Proofs.MarkupTokens

/-!
# Text that is cut into pieces

The text of an element may come in pieces: runs of text and character data sections, with
comments and instructions in between. A handler is called once for each piece. One that appends
its text does for the pieces what it does for all of them in one. One whose text takes the place
of what was there reads each piece by itself, and the last piece stands.
-/

namespace ObjectStore.Xml

variable {H C : Type} {handling : Handling H C} {table : Table H}

/-- The characters of a piece of text that is readable. -/
def Token.chars? : Token → Option String
  | .text raw => (Decoding.textOf raw).toOption
  | .cdata raw => (Decoding.cdataOf raw).toOption
  | .opening _ | .single _ | .closing _ => none

/-- Whether a token is a piece of text. -/
def Token.isText : Token → Bool
  | .text _ | .cdata _ => true
  | .opening _ | .single _ | .closing _ => false

namespace Passage

/-- The pieces of text of a passage. -/
def chunks (p : Passage) : List String := p.tokens.filterMap Token.chars?

/-- What is written in an element when there are no elements in it. -/
structure IsCharacterData (p : Passage) : Prop extends p.IsSound where
  inline : ∀ s ∈ p.segments, s.markup.isInline = true
  readable : ∀ token ∈ p.tokens, token.isReadable = true

end Passage

/-! ## Calls of a handler for pieces of text -/

namespace Handling

/-- Hand over pieces of text in turn, up to the first one that is refused. -/
def onChunks (handling : Handling H C) (h : H) (stack : Stack H) (value : C) :
    List String → C × Option DecodeError
  | [] => (value, none)
  | s :: r =>
      match handling.onText h s stack value with
      | (next, none) => handling.onChunks h stack next r
      | (next, some e) => (next, some e)

/-- A handler that does for two pieces of text what it does for both in one. -/
def Appends (handling : Handling H C) (h : H) : Prop :=
  ∀ stack value s t,
    handling.onChunks h stack value [s, t] = handling.onText h (s ++ t) stack value

/-- A handler that does for two pieces of text, when it can read them, what it does for the second
one. -/
def Replaces (handling : Handling H C) (h : H) (reads : String → Bool) : Prop :=
  ∀ stack value s t, reads s = true → reads t = true →
    handling.onChunks h stack value [s, t] = handling.onText h t stack value

variable {h : H} {stack : Stack H} {value : C} {chunks : List String}

theorem onChunks_singleton (s : String) :
    handling.onChunks h stack value [s] = handling.onText h s stack value := by
  unfold onChunks
  split
  · next heq => exact heq.symm
  · next heq => exact heq.symm

theorem onChunks_append (a b : List String) :
    handling.onChunks h stack value (a ++ b) =
      match handling.onChunks h stack value a with
      | (next, none) => handling.onChunks h stack next b
      | (next, some e) => (next, some e) := by
  induction a generalizing value with
  | nil => rfl
  | cons s r ih =>
      rw [List.cons_append, onChunks, onChunks]
      split
      · exact ih
      · rfl

theorem onChunks_two (s t : String) (r : List String) :
    handling.onChunks h stack value (s :: t :: r) =
      match handling.onChunks h stack value [s, t] with
      | (next, none) => handling.onChunks h stack next r
      | (next, some e) => (next, some e) :=
  onChunks_append [s, t] r

/-- Pieces that are appended one after the other are appended as one. -/
theorem onChunks_of_appends (happends : handling.Appends h) (hne : chunks ≠ []) :
    handling.onChunks h stack value chunks =
      handling.onText h (String.join chunks) stack value := by
  obtain ⟨s, r, rfl⟩ := List.exists_cons_of_ne_nil hne
  induction r generalizing s with
  | nil => rw [onChunks_singleton, String.join_cons, String.join_nil, String.append_empty]
  | cons t r ih =>
      rw [onChunks_two, happends, String.join_cons, String.join_cons, ← String.append_assoc,
        ← String.join_cons, ← ih (s ++ t) (List.cons_ne_nil _ _)]
      rfl

/-- Of pieces that take each other's place the last one stands. -/
theorem onChunks_of_replaces {reads : String → Bool} (hreplaces : handling.Replaces h reads)
    {last : String} (hreads : ∀ s ∈ chunks, reads s = true) (hlast : reads last = true) :
    handling.onChunks h stack value (chunks ++ [last]) =
      handling.onText h last stack value := by
  induction chunks generalizing value with
  | nil => exact onChunks_singleton last
  | cons s r ih =>
      obtain ⟨hs, hr⟩ := List.forall_mem_cons.1 hreads
      rw [← hreplaces stack value s last hs hlast, List.cons_append, onChunks, onChunks]
      split
      · rw [ih hr, onChunks_singleton]
      · rfl

/-- A piece that cannot be read is refused if none before it is. -/
theorem onChunks_refused {reads : String → Bool}
    (hrefuses : ∀ stack value s, reads s = false → (handling.onText h s stack value).2 ≠ none)
    (hexists : ∃ s ∈ chunks, reads s = false) :
    (handling.onChunks h stack value chunks).2 ≠ none := by
  induction chunks generalizing value with
  | nil =>
      obtain ⟨s, hs, -⟩ := hexists
      cases hs
  | cons s r ih =>
      rw [onChunks]
      split
      · next next heq =>
          apply ih
          obtain ⟨t, ht, hreads⟩ := hexists
          rcases List.mem_cons.1 ht with rfl | hr
          · have hrefusal := hrefuses stack value t hreads
            rw [heq] at hrefusal
            exact absurd rfl hrefusal
          · exact ⟨t, hr, hreads⟩
      · exact Option.some_ne_none _

end Handling

/-! ## Passages of text -/

theorem isSome_toOption {E A : Type} (x : Except E A) : x.toOption.isSome = x.isOk := by
  cases x <;> rfl

theorem isSome_chars? {token : Token} (htext : token.isText = true)
    (hreadable : token.isReadable = true) : token.chars?.isSome = true := by
  cases token with
  | text raw => exact (isSome_toOption _).trans hreadable
  | cdata raw => exact (isSome_toOption _).trans hreadable
  | _ => cases htext

theorem nest_of_isText {token : Token} (h : token.isText = true)
    (names : List (List UInt8)) : nest names token = some names := by
  cases token with
  | text raw => rfl
  | cdata raw => rfl
  | _ => cases h

theorem foldlM_nest_of_isText {tokens : List Token} (h : ∀ token ∈ tokens, token.isText = true)
    (names : List (List UInt8)) : tokens.foldlM nest names = some names := by
  induction tokens with
  | nil => rfl
  | cons token r ih =>
      obtain ⟨htoken, hr⟩ := List.forall_mem_cons.1 h
      rw [List.foldlM_cons, nest_of_isText htoken]
      exact ih hr

theorem isText_textToken {seen : List UInt8} {token : Token}
    (h : token ∈ (Lexer.textToken seen).toList) : token.isText = true := by
  unfold Lexer.textToken at h
  split at h
  · cases h
  · cases List.mem_singleton.1 h
    rfl

theorem Passage.IsCharacterData.isText {p : Passage} (hp : p.IsCharacterData) {token : Token}
    (h : token ∈ p.tokens) : token.isText = true := by
  rw [Passage.tokens, List.mem_append, List.mem_flatMap] at h
  rcases h with h | ⟨s, hs, h⟩
  · exact isText_textToken h
  · rw [Segment.tokens, List.mem_append] at h
    rcases h with h | h
    · have hinline := hp.inline s hs
      cases hm : s.markup with
      | cdata raw =>
          rw [hm] at h
          cases List.mem_singleton.1 h
          rfl
      | comment raw =>
          rw [hm] at h
          cases h
      | instruction raw =>
          rw [hm] at h
          cases h
      | _ =>
          rw [hm] at hinline
          cases hinline
    · exact isText_textToken h

/-! ## Decoding -/

namespace Decoding

variable {d : Decoding H C} {h : H} {tokens : List Token}

theorem feed_chunk {token : Token} {text : String} (htop : d.stack.top = some h)
    (hd : d.refusal = none) (htext : token.chars? = some text) :
    d.feed handling table token =
      { d with
        value := (handling.onText h text d.stack d.value).1,
        refusal := (handling.onText h text d.stack d.value).2 } := by
  have hfeed : d.feed handling table token = d.feedText handling (.ok text) := by
    cases token with
    | text raw => rw [feed_text hd, eq_ok_of_toOption htext]
    | cdata raw => rw [feed_cdata hd, eq_ok_of_toOption htext]
    | _ => cases htext
  rw [hfeed]
  simp [feedText, htop]

/-- Texts are handed to the innermost handler, one after the other. -/
theorem foldl_feed_chunks (htop : d.stack.top = some h) (hd : d.refusal = none)
    (htokens : ∀ token ∈ tokens, token.chars?.isSome = true) :
    tokens.foldl (feed handling table) d =
      { d with
        value := (handling.onChunks h d.stack d.value (tokens.filterMap Token.chars?)).1,
        refusal := (handling.onChunks h d.stack d.value (tokens.filterMap Token.chars?)).2 } := by
  induction tokens generalizing d with
  | nil =>
      rw [List.foldl_nil, List.filterMap_nil, Handling.onChunks, ← hd]
  | cons token r ih =>
      obtain ⟨htoken, hr⟩ := List.forall_mem_cons.1 htokens
      obtain ⟨text, htext⟩ := Option.isSome_iff_exists.1 htoken
      rw [List.foldl_cons, feed_chunk htop hd htext, List.filterMap_cons_some htext,
        Handling.onChunks]
      split
      · next next heq =>
          rw [heq]
          exact ih (d := ⟨d.stack, next, d.rootSeen, none⟩) htop rfl hr
      · next next e heq =>
          rw [heq, foldl_feed_refused (Option.some_ne_none e)]

end Decoding

/-- The head of a document that ends right behind a construct, inside of an element. -/
structure Inside (head name : List UInt8) : Prop where
  mode : (lexerAfter head).mode = .text []
  innermost : (lexerAfter head).names.head? = some name

section Around

variable {head name post : List UInt8} {p q : Passage} {value : C}

/-- A decoding up to the place of a passage. -/
def Decoding.before (handling : Handling H C) (table : Table H) (head : List UInt8) (value : C) :
    Decoding H C :=
  (Lexer.start.run (withoutMark head)).2.foldl (Decoding.feed handling table)
    (Decoding.start value)

theorem top_before (hinside : Inside head name)
    (h : (Decoding.before handling table head value).refusal = none) :
    (Decoding.before handling table head value).stack.top =
      some (table.find (localName name)) := by
  have hnest := Lexer.nest_run Lexer.start (withoutMark head)
  have hstart : (Decoding.start value : Decoding H C).Mirrors table Lexer.start.names := rfl
  obtain ⟨-, hmirrors, -⟩ := Decoding.foldl_feed_accepted hstart hnest h
  exact (Decoding.top_of_mirrors hmirrors).trans (congrArg (Option.map _) hinside.innermost)

theorem ofBytes_inside (hinside : Inside head name) (hp : p.IsCharacterData) :
    Tokens.ofBytes (head ++ p.bytes ++ 0x3C :: post) =
      ⟨(Lexer.start.run (withoutMark head)).2 ++
          (p.tokens ++ ((Lexer.mk .opened (lexerAfter head).names).rest post).tokens),
        ((Lexer.mk .opened (lexerAfter head).names).rest post).fault⟩ := by
  apply ofBytes_around hp.toIsSound hinside.mode
  · intro hnil
    have hsome := hinside.innermost
    rw [hnil] at hsome
    cases hsome
  · exact foldlM_nest_of_isText (fun token htoken => hp.isText htoken) _

/-- A decoding up to the end of a passage. -/
theorem ofBody_passage (hinside : Inside head name) (hp : p.IsCharacterData) :
    Decoding.ofBody handling table (head ++ p.bytes ++ 0x3C :: post) value =
      ((Lexer.mk .opened (lexerAfter head).names).rest post).tokens.foldl
        (Decoding.feed handling table)
        (p.tokens.foldl (Decoding.feed handling table)
          (Decoding.before handling table head value)) := by
  rw [Decoding.ofBody, ofBytes_inside hinside hp, List.foldl_append, List.foldl_append]
  rfl

/-- Passages whose pieces of text do the same to any value can stand for each other. -/
theorem decode_passage_congr (hinside : Inside head name) (hp : p.IsCharacterData)
    (hq : q.IsCharacterData)
    (hchunks : ∀ stack value,
      handling.onChunks (table.find (localName name)) stack value p.chunks =
        handling.onChunks (table.find (localName name)) stack value q.chunks) :
    decode handling table (head ++ p.bytes ++ 0x3C :: post) value =
      decode handling table (head ++ q.bytes ++ 0x3C :: post) value := by
  have hsame : p.tokens.foldl (Decoding.feed handling table)
        (Decoding.before handling table head value) =
      q.tokens.foldl (Decoding.feed handling table)
        (Decoding.before handling table head value) := by
    cases hd : (Decoding.before handling table head value).refusal with
    | some e =>
        have hrefused : (Decoding.before handling table head value).refusal ≠ none := by
          rw [hd]
          exact Option.some_ne_none e
        rw [Decoding.foldl_feed_refused hrefused, Decoding.foldl_feed_refused hrefused]
    | none =>
        have htop := top_before hinside hd
        rw [Decoding.foldl_feed_chunks htop hd fun t ht =>
            isSome_chars? (hp.isText ht) (hp.readable t ht),
          Decoding.foldl_feed_chunks htop hd fun t ht =>
            isSome_chars? (hq.isText ht) (hq.readable t ht)]
        have heq := hchunks (Decoding.before handling table head value).stack
          (Decoding.before handling table head value).value
        rw [Passage.chunks, Passage.chunks] at heq
        rw [heq]
  change ((Decoding.ofBody handling table _ value).finish _).result =
    ((Decoding.ofBody handling table _ value).finish _).result
  rw [ofBody_passage hinside hp, ofBody_passage hinside hq, hsame, ofBytes_inside hinside hp,
    ofBytes_inside hinside hq]

/-- A document with a piece of text that is always refused is not decoded. -/
theorem decode_passage_refused (hinside : Inside head name) (hp : p.IsCharacterData)
    (hrefused : ∀ stack value,
      (handling.onChunks (table.find (localName name)) stack value p.chunks).2 ≠ none) :
    ∃ e, decode handling table (head ++ p.bytes ++ 0x3C :: post) value = .error e := by
  have hpassage : (p.tokens.foldl (Decoding.feed handling table)
      (Decoding.before handling table head value)).refusal ≠ none := by
    intro hnone
    have hd := Decoding.refusal_of_foldl_feed hnone
    rw [Decoding.foldl_feed_chunks (top_before hinside hd) hd fun t ht =>
      isSome_chars? (hp.isText ht) (hp.readable t ht)] at hnone
    exact hrefused _ _ hnone
  have hbody : (Decoding.ofBody handling table (head ++ p.bytes ++ 0x3C :: post) value).refusal ≠
      none := by
    rw [ofBody_passage hinside hp, Decoding.foldl_feed_refused hpassage]
    exact hpassage
  cases hdecode : decode handling table (head ++ p.bytes ++ 0x3C :: post) value with
  | error e => exact ⟨e, rfl⟩
  | ok result => exact absurd (decode_eq_ok_iff.1 hdecode).1 hbody

end Around

end ObjectStore.Xml

namespace ObjectStore

open Text Xml

/-- Whether the text of an element is appended to what is there, or not read at all. The entity
tag is not among these elements although its value is a text. -/
def ListingTag.isJoined : ListingTag → Bool
  | .etag | .maxKeys | .isTruncated | .size | .lastModified => false
  | _ => true

/-- Whether the text of an element is read as a number, a flag or a date. -/
def ListingTag.isScalar : ListingTag → Bool
  | .maxKeys | .isTruncated | .size | .lastModified => true
  | _ => false

namespace Listing

/-- Whether a text by itself is a value of an element. -/
def reads : ListingTag → String → Bool
  | .maxKeys, text => (readNumber word32 "MaxKeys" text).isOk
  | .size, text => (readNumber word64 "Size" text).isOk
  | .isTruncated, text => (readBool "IsTruncated" text).isOk
  | .lastModified, text => (Calendar.Timestamp.parse? text).isSome
  | _, _ => true

variable {page : Listing} {tag : ListingTag} {stack : Stack ListingTag} {s t : String}

theorem onSummary_onSummary (element : String) (f g : Summary → Summary) :
    (onSummary element f page).bind (onSummary element g) = onSummary element (g ∘ f) page := by
  unfold onSummary
  cases page.summaries.getLast? with
  | none => rfl
  | some last => simp [Except.bind]

theorem onSummary_error {element : String} {f g : Summary → Summary} {e : DecodeError}
    (h : onSummary element f page = .error e) : onSummary element g page = .error e := by
  unfold onSummary at h ⊢
  cases hlast : page.summaries.getLast? with
  | none =>
      rw [hlast] at h
      exact h
  | some last =>
      rw [hlast] at h
      cases h

theorem onCommonPrefix_onCommonPrefix (s t : String) :
    onCommonPrefix t (onCommonPrefix s page) = onCommonPrefix (s ++ t) page := by
  unfold onCommonPrefix
  cases h : page.commonPrefixes.getLast? with
  | none => simp [h]
  | some last => simp [String.append_assoc]

theorem appended_appended (field : Option String) (s t : String) :
    appended (appended field s) t = appended field (s ++ t) := by
  simp [appended, String.append_assoc]

theorem onText_append (htag : tag.isJoined = true) (s t : String) :
    (onText tag s stack page).bind (onText tag t stack) = onText tag (s ++ t) stack page := by
  cases tag with
  | name => simp [onText, Except.bind, String.append_assoc]
  | keyPrefix =>
      unfold onText
      simp only
      split
      · simp [Except.bind, onCommonPrefix_onCommonPrefix]
      · simp [Except.bind, appended_appended]
  | marker => simp [onText, Except.bind, appended_appended]
  | nextMarker => simp [onText, Except.bind, appended_appended]
  | delimiter => simp [onText, Except.bind, appended_appended]
  | key =>
      refine (onSummary_onSummary _ _ _).trans ?_
      simp [onText, Function.comp_def, String.append_assoc]
  | storageClass =>
      refine (onSummary_onSummary _ _ _).trans ?_
      simp [onText, Function.comp_def, appended_appended]
  | id =>
      unfold onText
      simp only
      split
      · refine (onSummary_onSummary _ _ _).trans ?_
        simp [onOwner, Function.comp_def, String.append_assoc]
      · rfl
  | displayName =>
      unfold onText
      simp only
      split
      · refine (onSummary_onSummary _ _ _).trans ?_
        simp [onOwner, Function.comp_def, String.append_assoc]
      · rfl
  | root | contents | owner | commonPrefixes | unknown => rfl
  | etag | maxKeys | isTruncated | size | lastModified => cases htag

/-- Whether such a text is refused does not depend on the text. -/
theorem onText_error_of_joined {e : DecodeError} (htag : tag.isJoined = true)
    (h : onText tag t stack page = .error e) : onText tag s stack page = .error e := by
  cases tag with
  | keyPrefix =>
      unfold onText at h
      simp only at h
      split at h
      · cases h
      · cases h
  | key => exact onSummary_error h
  | storageClass => exact onSummary_error h
  | id =>
      unfold onText at h ⊢
      simp only at h ⊢
      split at h
      · next hparent =>
          rw [if_pos hparent]
          exact onSummary_error h
      · cases h
  | displayName =>
      unfold onText at h ⊢
      simp only at h ⊢
      split at h
      · next hparent =>
          rw [if_pos hparent]
          exact onSummary_error h
      · cases h
  | name | marker | nextMarker | delimiter => cases h
  | root | contents | owner | commonPrefixes | unknown => cases h
  | etag | maxKeys | isTruncated | size | lastModified => cases htag

/-- A value that was read takes the place of one that was read before. -/
theorem onText_replace (htag : tag.isScalar = true) (hs : reads tag s = true)
    (ht : reads tag t = true) :
    (onText tag s stack page).bind (onText tag t stack) = onText tag t stack page := by
  cases tag with
  | maxKeys =>
      rw [reads] at hs ht
      obtain ⟨n, hn⟩ := exists_of_isOk hs
      obtain ⟨m, hm⟩ := exists_of_isOk ht
      simp only [onText, hn, hm, Except.map, Except.bind]
  | isTruncated =>
      rw [reads] at hs ht
      obtain ⟨a, ha⟩ := exists_of_isOk hs
      obtain ⟨b, hb⟩ := exists_of_isOk ht
      simp only [onText, ha, hb, Except.map, Except.bind]
  | size =>
      rw [reads] at hs ht
      obtain ⟨n, hn⟩ := exists_of_isOk hs
      obtain ⟨m, hm⟩ := exists_of_isOk ht
      have hstore : onText .size t stack =
          onSummary "Size" fun summary => { summary with size := m } := by
        funext page
        simp only [onText, hm, Except.bind]
      rw [hstore]
      simp only [onText, hn, Except.bind]
      exact onSummary_onSummary _ _ _
  | lastModified =>
      obtain ⟨v, hv⟩ := Option.isSome_iff_exists.1 hs
      obtain ⟨w, hw⟩ := Option.isSome_iff_exists.1 ht
      have hstore : onText .lastModified t stack =
          onSummary "LastModified" fun summary => { summary with lastModified := some w } := by
        funext page
        simp only [onText, hw]
      rw [hstore]
      simp only [onText, hv]
      exact onSummary_onSummary _ _ _
  | _ => cases htag

/-- Whether a value that was read is refused does not depend on the value. -/
theorem onText_error_of_scalar {e : DecodeError} (htag : tag.isScalar = true)
    (hs : reads tag s = true) (ht : reads tag t = true)
    (h : onText tag t stack page = .error e) : onText tag s stack page = .error e := by
  cases tag with
  | maxKeys =>
      rw [reads] at ht
      obtain ⟨m, hm⟩ := exists_of_isOk ht
      simp only [onText, hm, Except.map] at h
      cases h
  | isTruncated =>
      rw [reads] at ht
      obtain ⟨b, hb⟩ := exists_of_isOk ht
      simp only [onText, hb, Except.map] at h
      cases h
  | size =>
      rw [reads] at hs ht
      obtain ⟨n, hn⟩ := exists_of_isOk hs
      obtain ⟨m, hm⟩ := exists_of_isOk ht
      simp only [onText, hm, Except.bind] at h
      simp only [onText, hn, Except.bind]
      exact onSummary_error h
  | lastModified =>
      obtain ⟨v, hv⟩ := Option.isSome_iff_exists.1 hs
      obtain ⟨w, hw⟩ := Option.isSome_iff_exists.1 ht
      simp only [onText, hw] at h
      simp only [onText, hv]
      exact onSummary_error h
  | _ => cases htag

theorem onText_of_not_reads (stack : Stack ListingTag) (page : Listing)
    (h : reads tag s = false) : ∃ e, onText tag s stack page = .error e := by
  cases tag with
  | maxKeys =>
      rw [reads] at h
      obtain ⟨e, he⟩ := exists_of_not_isOk h
      refine ⟨e, ?_⟩
      simp only [onText, he, Except.map]
  | isTruncated =>
      rw [reads] at h
      obtain ⟨e, he⟩ := exists_of_not_isOk h
      refine ⟨e, ?_⟩
      simp only [onText, he, Except.map]
  | size =>
      rw [reads] at h
      obtain ⟨e, he⟩ := exists_of_not_isOk h
      refine ⟨e, ?_⟩
      simp only [onText, he, Except.bind]
  | lastModified =>
      refine ⟨.invalidValue "LastModified" s, ?_⟩
      simp only [onText, Option.isNone_iff_eq_none.1 (Option.isSome_eq_false_iff.1 h)]
  | _ => cases h

/-! ## The handlers of a listing -/

theorem onText_eq_effect :
    handling.onText tag s stack page = effect page (onText tag s stack page) :=
  rfl

/-- Two pieces of text do what one does if neither is refused alone. -/
theorem onChunks_two_eq {whole : Except DecodeError Listing}
    (hbind : (onText tag s stack page).bind (onText tag t stack) = whole)
    (herror : ∀ e, whole = .error e → onText tag s stack page = .error e) :
    handling.onChunks tag stack page [s, t] = effect page whole := by
  rw [Handling.onChunks, onText_eq_effect]
  cases hs : onText tag s stack page with
  | error e =>
      rw [← hbind, hs]
      rfl
  | ok next =>
      rw [hs] at hbind
      change handling.onChunks tag stack next [t] = effect page whole
      rw [Handling.onChunks_singleton, onText_eq_effect]
      cases ht : onText tag t stack next with
      | ok last =>
          rw [← hbind, Except.bind, ht]
          rfl
      | error e =>
          have hwhole : whole = .error e := by rw [← hbind, Except.bind, ht]
          rw [herror e hwhole] at hs
          cases hs

theorem appends_of_isJoined (htag : tag.isJoined = true) : handling.Appends tag := by
  intro stack page s t
  exact onChunks_two_eq (onText_append htag s t) fun e h => onText_error_of_joined htag h

theorem replaces_of_isScalar (htag : tag.isScalar = true) :
    handling.Replaces tag (reads tag) := by
  intro stack page s t hs ht
  exact onChunks_two_eq (onText_replace htag hs ht) fun e h =>
    onText_error_of_scalar htag hs ht h

theorem refused_of_not_reads (stack : Stack ListingTag) (page : Listing) (s : String)
    (h : reads tag s = false) : (handling.onText tag s stack page).2 ≠ none := by
  obtain ⟨e, he⟩ := onText_of_not_reads stack page h
  rw [onText_eq_effect, he]
  exact Option.some_ne_none e

theorem reads_empty (htag : tag.isScalar = true) : reads tag "" = false := by
  cases tag with
  | maxKeys | isTruncated | size | lastModified => decide
  | _ => cases htag

end Listing

/-- A single run of text as a passage. -/
theorem isCharacterData_run {run : List UInt8} {text : String} (hbracket : 0x3C ∉ run)
    (htext : Decoding.textOf run = .ok text) : (Passage.mk run []).IsCharacterData := by
  refine ⟨⟨hbracket, by simp⟩, by simp, ?_⟩
  intro token htoken
  rw [Passage.tokens, Lexer.textToken] at htoken
  split at htoken
  · cases htoken
  · cases List.mem_singleton.1 htoken
    rw [Token.isReadable, List.reverse_reverse, htext]
    rfl

theorem chunks_run {run : List UInt8} {text : String} (htext : Decoding.textOf run = .ok text)
    (hne : text ≠ "") : (Passage.mk run []).chunks = [text] := by
  have hrun : run.reverse.isEmpty = false := by
    cases run with
    | nil => exact absurd (Except.ok.inj htext).symm hne
    | cons b r => simp
  simp [Passage.chunks, Passage.tokens, Lexer.textToken, hrun, Token.chars?, htext,
    Except.toOption]

theorem bytes_run (run : List UInt8) : (Passage.mk run []).bytes = run := by
  simp [Passage.bytes]

namespace Listing

/-- A text can stand for pieces if the handler does the same for them. -/
theorem decode_run_congr {options : ListingOptions} {head name post run : List UInt8}
    {cut : Passage} {text : String} (hinside : Inside head name) (hcut : cut.IsCharacterData)
    (hbracket : 0x3C ∉ run) (htext : Decoding.textOf run = .ok text) (hne : text ≠ "")
    (hchunks : ∀ stack value,
      handling.onChunks ((table options).find (localName name)) stack value cut.chunks =
        handling.onText ((table options).find (localName name)) text stack value) :
    decode options (head ++ cut.bytes ++ 0x3C :: post) =
      decode options (head ++ run ++ 0x3C :: post) := by
  have hrun := isCharacterData_run hbracket htext
  have hsame : Xml.decode handling (table options) (head ++ cut.bytes ++ 0x3C :: post) {} =
      Xml.decode handling (table options) (head ++ (Passage.mk run []).bytes ++ 0x3C :: post)
        {} := by
    refine decode_passage_congr hinside hcut hrun fun stack value => ?_
    rw [chunks_run htext hne, Handling.onChunks_singleton]
    exact hchunks stack value
  rw [bytes_run] at hsame
  rw [decode, decode, hsame]

/-- How the text of an element is cut makes no difference where it is appended or not read. Where
it is read as a value, every piece must be one, and the last piece alone counts. -/
theorem decode_cut {options : ListingOptions} {head name post : List UInt8} {cut : Passage}
    (hinside : Inside head name) (hcut : cut.IsCharacterData) :
    (((table options).find (localName name)).isJoined = true →
      ∀ run, 0x3C ∉ run → Decoding.textOf run = .ok (String.join cut.chunks) →
        String.join cut.chunks ≠ "" →
        decode options (head ++ cut.bytes ++ 0x3C :: post) =
          decode options (head ++ run ++ 0x3C :: post)) ∧
    (((table options).find (localName name)).isScalar = true →
      ((∀ chunk ∈ cut.chunks, reads ((table options).find (localName name)) chunk = true) →
        ∀ run last, cut.chunks.getLast? = some last → 0x3C ∉ run →
          Decoding.textOf run = .ok last →
          decode options (head ++ cut.bytes ++ 0x3C :: post) =
            decode options (head ++ run ++ 0x3C :: post)) ∧
      ((∃ chunk ∈ cut.chunks, reads ((table options).find (localName name)) chunk = false) →
        ∃ e, decode options (head ++ cut.bytes ++ 0x3C :: post) = .error e)) := by
  refine ⟨?_, fun htag => ⟨?_, ?_⟩⟩
  · intro htag run hbracket htext hne
    have hchunks : cut.chunks ≠ [] := fun hnil => hne (by rw [hnil, String.join_nil])
    exact decode_run_congr hinside hcut hbracket htext hne fun stack value =>
      Handling.onChunks_of_appends (appends_of_isJoined htag) hchunks
  · intro hreads run last hlast hbracket htext
    obtain ⟨before, hcut'⟩ := List.getLast?_eq_some_iff.1 hlast
    have hlastReads := hreads last (List.mem_of_getLast? hlast)
    have hne : last ≠ "" := by
      rintro rfl
      rw [reads_empty htag] at hlastReads
      cases hlastReads
    refine decode_run_congr hinside hcut hbracket htext hne fun stack value => ?_
    rw [hcut']
    exact Handling.onChunks_of_replaces (replaces_of_isScalar htag)
      (fun s hs => hreads s (by rw [hcut']; exact List.mem_append_left _ hs)) hlastReads
  · intro hexists
    obtain ⟨e, he⟩ : ∃ e, Xml.decode handling (table options)
        (head ++ cut.bytes ++ 0x3C :: post) {} = .error e :=
      decode_passage_refused hinside hcut fun stack value =>
        Handling.onChunks_refused refused_of_not_reads hexists
    exact ⟨e, by rw [decode, he]; rfl⟩

/-- A listing of one object up to the text of one of its elements. -/
def objectHead (element : String) : List UInt8 :=
  Utf8.ofText ("<ListBucketResult><Contents><" ++ element ++ ">")

/-- The rest of the listing after the bracket of the end tag. -/
def objectRest (element : String) : List UInt8 :=
  Utf8.ofText ("/" ++ element ++ "></Contents></ListBucketResult>")

/-- The key `a&<b`, its last two letters in a section. -/
def cutKey : Passage :=
  ⟨Utf8.ofText "a&amp;", [⟨.comment (Utf8.ofText "-"), []⟩, ⟨.cdata (Utf8.ofText "<b"), []⟩]⟩

/-- The digits of twelve, the second one in a section. -/
def cutSize : Passage := ⟨Utf8.ofText "1", [⟨.cdata (Utf8.ofText "2"), []⟩]⟩

theorem inside_key : Inside (objectHead "Key") (Utf8.ofText "Key") :=
  ⟨by decide +kernel, by decide +kernel⟩

theorem inside_size : Inside (objectHead "Size") (Utf8.ofText "Size") :=
  ⟨by decide +kernel, by decide +kernel⟩

theorem isCharacterData_cutKey : cutKey.IsCharacterData :=
  ⟨by decide +kernel, by decide +kernel, by decide +kernel⟩

theorem isCharacterData_cutSize : cutSize.IsCharacterData :=
  ⟨by decide +kernel, by decide +kernel, by decide +kernel⟩

/-- The key is read as if it were not cut, the size as its last digit. -/
theorem decode_cut_key_and_size :
    Inside (objectHead "Key") (Utf8.ofText "Key") ∧ cutKey.IsCharacterData ∧
    decode {} (objectHead "Key" ++ cutKey.bytes ++ 0x3C :: objectRest "Key") =
      decode {} (objectHead "Key" ++ Utf8.ofText "a&amp;&lt;b" ++ 0x3C :: objectRest "Key") ∧
    Inside (objectHead "Size") (Utf8.ofText "Size") ∧ cutSize.IsCharacterData ∧
    decode {} (objectHead "Size" ++ cutSize.bytes ++ 0x3C :: objectRest "Size") =
      decode {} (objectHead "Size" ++ Utf8.ofText "2" ++ 0x3C :: objectRest "Size") := by
  refine ⟨inside_key, isCharacterData_cutKey, ?_, inside_size, isCharacterData_cutSize, ?_⟩
  · exact (decode_cut inside_key isCharacterData_cutKey).1 (by decide +kernel)
      (Utf8.ofText "a&amp;&lt;b") (by decide +kernel) (eq_ok_of_toOption (by decide +kernel))
      (by decide +kernel)
  · exact ((decode_cut inside_size isCharacterData_cutSize).2 (by decide +kernel)).1
      (by decide +kernel) (Utf8.ofText "2") "2" (by decide +kernel) (by decide +kernel)
      (eq_ok_of_toOption (by decide +kernel))

/-- A size that is cut is not read like the same digits in one piece. -/
theorem cut_size_differs :
    ¬∀ (options : ListingOptions) (head name post : List UInt8) (cut : Passage)
        (run : List UInt8),
      Inside head name → cut.IsCharacterData →
      (table options).find (localName name) ≠ .unknown →
      0x3C ∉ run → Decoding.textOf run = .ok (String.join cut.chunks) →
      decode options (head ++ cut.bytes ++ 0x3C :: post) =
        decode options (head ++ run ++ 0x3C :: post) := by
  intro h
  have hsame := h {} (objectHead "Size") (Utf8.ofText "Size") (objectRest "Size") cutSize
    (Utf8.ofText "12") inside_size isCharacterData_cutSize (by decide +kernel) (by decide +kernel)
    (eq_ok_of_toOption (by decide +kernel))
  have hsizes := congrArg (fun x => x.toOption.map fun page => page.summaries.map (·.size)) hsame
  exact absurd hsizes (by decide +kernel)

end Listing

end ObjectStore
