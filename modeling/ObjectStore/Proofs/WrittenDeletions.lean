import ObjectStore.Deletion.Written
import ObjectStore.Proofs.WrittenListings

/-!
# Outcomes of deletions that are written are read back

Keys stand in both kinds of entries, and a handler finds the entry that a key belongs to by the
element around it. Since each start tag of an entry begins a new one at the end of its list, the
entry is always the last one of the list of its kind, whatever stands between the entries.
-/

namespace ObjectStore

open Text Xml
open Listing (Gap)

attribute [ext] Deleted DeleteFailure Deletion

/-! ## Values -/

namespace Xml

variable {H C : Type} {handling : Handling H C} {table : Table H} {stack : Stack H} {u v : C}
  {h : H} {p : Passage}

theorem Passage.IsCharacterData.balanced (hp : p.IsCharacterData) : Balanced p.segments := by
  refine ⟨hp.segments, foldlM_nest_of_isText fun token htoken => hp.isText ?_⟩
  exact List.mem_append_right _ htoken

/-- What is written in an element does what its handler does with the pieces. -/
theorem Builds.chunks (hp : p.IsCharacterData) (htop : stack.top = some h)
    (hchunks : handling.onChunks h stack u p.chunks = (v, none)) :
    Builds handling table stack p.tokens u v := by
  have hfeed : p.tokens.foldl (Decoding.feed handling table) ⟨stack, u, true, none⟩ = _ :=
    Decoding.foldl_feed_chunks htop rfl fun token htoken =>
      isSome_chars? (hp.isText htoken) (hp.readable token htoken)
  rw [Builds, hfeed]
  change (⟨stack, (handling.onChunks h stack u p.chunks).1, true,
    (handling.onChunks h stack u p.chunks).2⟩ : Decoding H C) = _
  rw [hchunks]

end Xml

namespace WrittenText

/-- A run of text is read as what it was written for. An empty one is no piece at all. -/
theorem join_run (run : String) :
    String.join ((Lexer.textToken (Utf8.encode (Reference.escape run.toList)).reverse).toList
      |>.filterMap Token.chars?) = run := by
  by_cases hempty : run = ""
  · subst hempty
    rfl
  · have hchunks := chunks_run (Decoding.textOf_escape run) hempty
    rw [Passage.chunks, Passage.tokens, List.flatMap_nil, List.append_nil] at hchunks
    rw [hchunks, String.join_cons, String.join_nil, String.append_empty]

theorem join_piece (p : Piece) :
    String.join (p.segment.tokens.filterMap Token.chars?) = p.text := by
  rw [Segment.tokens, List.filterMap_append, String.join_append]
  cases p with
  | cdata text sound run =>
      have hchars : Token.chars? (.cdata (Utf8.ofText text)) = some text := by
        rw [Token.chars?, Decoding.cdataOf, Utf8.ofText, Utf8.decode_encode]
        simp [Except.toOption]
      have hsection : (Markup.cdata (Utf8.ofText text)).token?.toList.filterMap Token.chars? =
          [text] := List.filterMap_cons_some hchars
      exact congrArg₂ (· ++ ·) ((congrArg String.join hsection).trans (by simp)) (join_run run)
  | passed markup sound run =>
      have hnone : markup.token?.toList.filterMap Token.chars? = [] := by
        rw [sound.2]
        rfl
      exact congrArg₂ (· ++ ·) (congrArg String.join hnone) (join_run run)

/-- The value that is written in several pieces is that of the pieces put together. -/
theorem value_ofPieces (first : String) (pieces : List Piece) :
    (ofPieces first pieces).value = first ++ String.join (pieces.map Piece.text) := by
  have hpieces : String.join (((pieces.map Piece.segment).flatMap Segment.tokens).filterMap
      Token.chars?) = String.join (pieces.map Piece.text) := by
    induction pieces with
    | nil => rfl
    | cons p rest ih =>
        rw [List.map_cons, List.flatMap_cons, List.filterMap_append, String.join_append,
          join_piece, ih, List.map_cons, String.join_cons]
  rw [value, ofPieces, Passage.chunks, Passage.tokens, List.filterMap_append, String.join_append,
    join_run, hpieces]

theorem value_ofText (text : String) : (ofText text).value = text :=
  (value_ofPieces text []).trans (by simp)

theorem value_ofCdata (text : String) (sound : (Markup.cdata (Utf8.ofText text)).IsSound) :
    (ofCdata text sound).value = text :=
  (value_ofPieces "" [.cdata text sound ""]).trans (by simp [Piece.text])

theorem value_ofSections (text : String) : (ofSections text).value = text := by
  have hjoin (cs : List Char) : String.join (cs.map String.singleton) = String.ofList cs := by
    induction cs with
    | nil => rfl
    | cons c rest ih => simp [ih]
  rw [ofSections, value_ofPieces, List.map_map, String.empty_append]
  simpa [Function.comp_def, Piece.text] using hjoin text.toList

end WrittenText

namespace DeletionTag

theorem find_element {tag : DeletionTag} (h : tag ≠ .unknown) :
    Deletion.table.find (localName (Utf8.ofText tag.element)) = tag := by
  cases tag with
  | unknown => exact absurd rfl h
  | _ => decide +kernel

theorem isName_element (tag : DeletionTag) :
    (Utf8.ofText tag.element).all Markup.isNameByte = true := by
  cases tag <;> decide +kernel

theorem ne_unknown_of_isField {tag : DeletionTag} (h : tag.isField = true) : tag ≠ .unknown := by
  rintro rfl
  cases h

end DeletionTag

namespace Deletion

variable {d : Deletion} {tag : DeletionTag} {stack : Stack DeletionTag}

/-! ## Handlers -/

/-- Only fields read their text. -/
theorem onText_of_not_isField (h : tag.isField = false) (text : String) :
    onText tag text stack d = (d, none) := by
  unfold onText
  split
  all_goals first | rfl | cases h

/-- An outcome that has come to a key that was deleted, after other entries. -/
def withDeleted (d : Deletion) (e : Deleted) : Deletion := { d with deleted := d.deleted ++ [e] }

/-- An outcome that has come to a key that was not deleted. -/
def withFailure (d : Deletion) (e : DeleteFailure) : Deletion :=
  { d with failures := d.failures ++ [e] }

@[simp] theorem onDeleted_withDeleted (f : Deleted → Deleted) (e : Deleted) :
    onDeleted f (d.withDeleted e) = (d.withDeleted (f e), none) := by
  simp [onDeleted, withDeleted]

@[simp] theorem onFailure_withFailure (f : DeleteFailure → DeleteFailure) (e : DeleteFailure) :
    onFailure f (d.withFailure e) = (d.withFailure (f e), none) := by
  simp [onFailure, withFailure]

/-- A handler reads no text, or appends it to a field of the last entry of one of the lists. -/
theorem onText_cases (tag : DeletionTag) (stack : Stack DeletionTag) :
    (∀ text d, onText tag text stack d = (d, none)) ∨
    (∃ add : Deleted → String → Deleted, (∀ e s t, add (add e s) t = add e (s ++ t)) ∧
      ∀ text d, onText tag text stack d = onDeleted (add · text) d) ∨
    ∃ add : DeleteFailure → String → DeleteFailure, (∀ e s t, add (add e s) t = add e (s ++ t)) ∧
      ∀ text d, onText tag text stack d = onFailure (add · text) d := by
  unfold onText
  split
  · exact .inr (.inl ⟨_, fun e s t => by simp [String.append_assoc], fun text d => rfl⟩)
  · exact .inr (.inl ⟨_, fun e s t => by simp [String.append_assoc], fun text d => rfl⟩)
  · exact .inr (.inr ⟨_, fun e s t => by simp [String.append_assoc], fun text d => rfl⟩)
  · exact .inr (.inr ⟨_, fun e s t => by simp [String.append_assoc], fun text d => rfl⟩)
  · exact .inr (.inr ⟨_, fun e s t => by simp [String.append_assoc], fun text d => rfl⟩)
  · exact .inl fun text d => rfl

theorem appends (tag : DeletionTag) : handling.Appends tag := by
  intro stack d s t
  rw [Handling.onChunks]
  simp only [Handling.onChunks_singleton]
  rcases onText_cases tag stack with hidle | ⟨add, hadd, htext⟩ | ⟨add, hadd, htext⟩
  · simp only [handling, hidle]
  · simp only [handling, htext, onDeleted]
    cases d.deleted.getLast? with
    | none => rfl
    | some last => simp [hadd]
  · simp only [handling, htext, onFailure]
    cases d.failures.getLast? with
    | none => rfl
    | some last => simp [hadd]

/-! ## Elements -/

variable {outer : DeletionTag} {before after : Deletion}

/-- What an outcome reads of segments inside of the root. -/
def Reads (stack : Stack DeletionTag) (segments : List Segment) (before after : Deletion) : Prop :=
  Builds handling table stack (segments.flatMap Segment.tokens) before after

theorem builds_gap (htop : stack.top = some outer) (houter : outer.isField = false) (gap : Gap) :
    Builds handling table stack (Lexer.textToken gap.bytes.reverse).toList d d :=
  Builds.text htop (Listing.textOf_gap gap) (fun _ => rfl) fun _ =>
    onText_of_not_isField houter _

theorem WrittenField.balanced (f : WrittenField) : Balanced f.segments :=
  f.text.sound.balanced.element f.tag.isName_element (by decide) f.text.sound.text
    (Listing.bracket_not_mem_gap f.gap)

/-- A field does what its handler does with the whole value. For an empty one the handler may not
be called. -/
theorem WrittenField.reads (htop : stack.top = some outer) (houter : outer.isField = false)
    (f : WrittenField)
    (hempty : f.text.value = "" → before = after)
    (htext : onText f.tag f.text.value (stack.push f.tag) before = (after, none)) :
    Reads stack f.segments before after := by
  have hstart : handling.onStart f.tag before = (before, none) := by
    have hfield := f.isField
    cases htag : f.tag with
    | key | versionId | code | message => rfl
    | _ =>
        rw [htag] at hfield
        cases hfield
  refine Builds.element (DeletionTag.find_element (DeletionTag.ne_unknown_of_isField f.isField))
    hstart (Builds.chunks f.text.sound rfl ?_) rfl (builds_gap htop houter f.gap)
  by_cases hchunks : f.text.passage.chunks = []
  · have hvalue : f.text.value = "" := by
      rw [WrittenText.value, hchunks, String.join_nil]
    rw [hchunks, ← hempty hvalue]
    rfl
  · rw [Handling.onChunks_of_appends (appends f.tag) hchunks]
    exact htext

/-! ## Entries -/

/-- What a field adds to a key that was deleted. -/
def WrittenField.addDeleted (e : Deleted) (f : WrittenField) : Deleted :=
  match f.tag with
  | .key => { e with key := e.key ++ f.text.value }
  | .versionId => { e with versionId := some (e.versionId.getD "" ++ f.text.value) }
  | _ => e

/-- What a field adds to a key that was not deleted. -/
def WrittenField.addFailure (e : DeleteFailure) (f : WrittenField) : DeleteFailure :=
  match f.tag with
  | .key => { e with key := e.key ++ f.text.value }
  | .code => { e with code := e.code ++ f.text.value }
  | .message => { e with message := e.message ++ f.text.value }
  | _ => e

theorem WrittenField.reads_deleted (htop : stack.top = some .deleted) (f : WrittenField)
    (hversion : f.tag = .versionId → f.text.value ≠ "") (e : Deleted) :
    Reads stack f.segments (d.withDeleted e) (d.withDeleted (f.addDeleted e)) := by
  have hparent : (stack.push f.tag).parent = some .deleted := htop
  refine f.reads htop rfl (fun hvalue => ?_) ?_
  · cases htag : f.tag with
    | versionId => exact absurd hvalue (hversion htag)
    | _ => simp [addDeleted, htag, hvalue]
  · unfold onText
    rw [hparent]
    cases htag : f.tag <;> simp [addDeleted, htag]

theorem WrittenField.reads_failure (htop : stack.top = some .failure) (f : WrittenField)
    (e : DeleteFailure) :
    Reads stack f.segments (d.withFailure e) (d.withFailure (f.addFailure e)) := by
  have hparent : (stack.push f.tag).parent = some .failure := htop
  refine f.reads htop rfl (fun hvalue => ?_) ?_
  · cases htag : f.tag <;> simp [addFailure, htag, hvalue]
  · unfold onText
    rw [hparent]
    cases htag : f.tag <;> simp [addFailure, htag]

/-- The fields of a written key make up its entry. -/
theorem WrittenDeleted.foldl_fields (w : WrittenDeleted) :
    w.fields.foldl WrittenField.addDeleted {} = w.entry := by
  have hkey : (w.fields.foldl WrittenField.addDeleted {}).key =
      (w.fields.filterMap (·.valueOf .key)).foldl (· ++ ·) "" := by
    apply Listing.foldl_field
    intro e f
    unfold WrittenField.addDeleted WrittenField.valueOf
    cases f.tag <;> rfl
  have hversionId : (w.fields.foldl WrittenField.addDeleted {}).versionId =
      (w.fields.filterMap (·.valueOf .versionId)).foldl Listing.appended none := by
    apply Listing.foldl_field
    intro e f
    unfold WrittenField.addDeleted WrittenField.valueOf
    cases f.tag <;> rfl
  ext1
  · rw [hkey, w.key]
    simp
  · rw [hversionId, w.versionId, Listing.foldl_appended]

theorem WrittenFailure.foldl_fields (w : WrittenFailure) :
    w.fields.foldl WrittenField.addFailure {} = w.entry := by
  have hkey : (w.fields.foldl WrittenField.addFailure {}).key =
      (w.fields.filterMap (·.valueOf .key)).foldl (· ++ ·) "" := by
    apply Listing.foldl_field
    intro e f
    unfold WrittenField.addFailure WrittenField.valueOf
    cases f.tag <;> rfl
  have hcode : (w.fields.foldl WrittenField.addFailure {}).code =
      (w.fields.filterMap (·.valueOf .code)).foldl (· ++ ·) "" := by
    apply Listing.foldl_field
    intro e f
    unfold WrittenField.addFailure WrittenField.valueOf
    cases f.tag <;> rfl
  have hmessage : (w.fields.foldl WrittenField.addFailure {}).message =
      (w.fields.filterMap (·.valueOf .message)).foldl (· ++ ·) "" := by
    apply Listing.foldl_field
    intro e f
    unfold WrittenField.addFailure WrittenField.valueOf
    cases f.tag <;> rfl
  ext1
  · rw [hkey, w.key]
    simp
  · rw [hcode, w.code]
    simp
  · rw [hmessage, w.message]
    simp

theorem WrittenDeleted.versioned_of_mem (w : WrittenDeleted) {f : WrittenField}
    (hf : f ∈ w.fields) (htag : f.tag = .versionId) : f.text.value ≠ "" := by
  intro hvalue
  have hmem := Listing.mem_of_part w.versionId hf (if_pos htag)
  rw [hvalue, Option.mem_toList] at hmem
  exact w.versioned hmem

/-- An entry is added to the list of its kind. -/
def WrittenEntry.addTo (d : Deletion) : WrittenEntry → Deletion
  | .deleted w => d.withDeleted w.entry
  | .failure w => d.withFailure w.entry

theorem WrittenEntry.balanced (e : WrittenEntry) (gap : Gap) : Balanced (e.segments gap) := by
  have hcontainer (tag : DeletionTag) (lead : Gap) (fields : List WrittenField) :
      Balanced (container tag lead fields gap) :=
    (Balanced.flatMap fun f _ => f.balanced).element tag.isName_element (by decide)
      (Listing.bracket_not_mem_gap lead) (Listing.bracket_not_mem_gap gap)
  cases e with
  | deleted w => exact hcontainer .deleted w.lead w.fields
  | failure w => exact hcontainer .failure w.lead w.fields

/-- Whatever stands before it, an entry is read as it was written. -/
theorem WrittenEntry.reads (htop : stack.top = some .root) (e : WrittenEntry) (gap : Gap)
    (d : Deletion) : Reads stack (e.segments gap) d (e.addTo d) := by
  cases e with
  | deleted w =>
      have hfields : Reads (stack.push .deleted) (w.fields.flatMap WrittenField.segments)
          (d.withDeleted {}) (d.withDeleted (w.fields.foldl WrittenField.addDeleted {})) :=
        Builds.flatMap fun f hf e => f.reads_deleted rfl (w.versioned_of_mem hf) e
      rw [w.foldl_fields] at hfields
      exact Builds.element (DeletionTag.find_element (by decide)) rfl
        ((builds_gap rfl rfl w.lead).append hfields) rfl (builds_gap htop rfl gap)
  | failure w =>
      have hfields : Reads (stack.push .failure) (w.fields.flatMap WrittenField.segments)
          (d.withFailure {}) (d.withFailure (w.fields.foldl WrittenField.addFailure {})) :=
        Builds.flatMap fun f _ e => f.reads_failure rfl e
      rw [w.foldl_fields] at hfields
      exact Builds.element (DeletionTag.find_element (by decide)) rfl
        ((builds_gap rfl rfl w.lead).append hfields) rfl (builds_gap htop rfl gap)

/-! ## What can be written -/

theorem WrittenField.valueOf_ofText (tag other : DeletionTag) (h : other.isField = true) (gap : Gap)
    (text : String) : (WrittenField.ofText other h gap text).valueOf tag =
      if other = tag then some text else none := by
  rw [valueOf, ofText, WrittenText.value_ofText]

/-- A key that was deleted with its fields in their usual order. -/
def WrittenDeleted.ofEntry (gap : Gap) (e : Deleted) (h : e.versionId ≠ some "") :
    WrittenDeleted where
  entry := e
  lead := gap
  fields := .ofText .key (by decide) gap e.key ::
    e.versionId.toList.map (.ofText .versionId (by decide) gap)
  key := by
    cases e.versionId <;> simp [WrittenField.valueOf_ofText]
  versionId := by
    cases e.versionId <;> simp [WrittenField.valueOf_ofText]
  versioned := h

/-- A key that was not deleted with its fields in their usual order. -/
def WrittenFailure.ofEntry (gap : Gap) (e : DeleteFailure) : WrittenFailure where
  entry := e
  lead := gap
  fields := [.ofText .key (by decide) gap e.key, .ofText .code (by decide) gap e.code,
    .ofText .message (by decide) gap e.message]
  key := by simp [WrittenField.valueOf_ofText]
  code := by simp [WrittenField.valueOf_ofText]
  message := by simp [WrittenField.valueOf_ofText]

/-- All entries can be written, in any order. -/
theorem exists_document {entries : List (Deleted ⊕ DeleteFailure)}
    (h : ∀ e, .inl e ∈ entries → e.versionId ≠ some "") :
    ∃ doc : Document, doc.entries.map (·.1.entry) = entries := by
  obtain ⟨written, hwritten⟩ : ∃ written : List (WrittenEntry × Gap),
      written.map (·.1.entry) = entries := by
    induction entries with
    | nil => exact ⟨[], rfl⟩
    | cons e r ih =>
        obtain ⟨written, rfl⟩ := ih fun d hd => h d (List.mem_cons_of_mem _ hd)
        cases e with
        | inl d =>
            have hd := h d List.mem_cons_self
            exact ⟨(.deleted (.ofEntry .newline d hd), .newline) :: written, rfl⟩
        | inr f => exact ⟨(.failure (.ofEntry .newline f), .newline) :: written, rfl⟩
  exact ⟨⟨.newline, [], by simp, [], rfl, .newline, written, .newline⟩, hwritten⟩

/-! ## Documents -/

namespace Document

/-- The outcome that is read of the entries. -/
def read (doc : Document) : Deletion := doc.entries.foldl (fun d e => e.1.addTo d) {}

/-- The entries of a document make up its outcome. -/
theorem read_eq (doc : Document) : doc.read = doc.outcome := by
  have hdeleted : doc.read.deleted =
      (doc.entries.filterMap (·.1.entry.getLeft?)).foldl (fun l x => l ++ [x]) [] :=
    Listing.foldl_field (by rintro d ⟨_ | _, _⟩ <;> rfl) _ _
  have hfailures : doc.read.failures =
      (doc.entries.filterMap (·.1.entry.getRight?)).foldl (fun l x => l ++ [x]) [] :=
    Listing.foldl_field (by rintro d ⟨_ | _, _⟩ <;> rfl) _ _
  rw [Listing.foldl_concat] at hdeleted hfailures
  exact Deletion.ext hdeleted hfailures

end Document

/-- Every document of entries of both kinds, mixed in any way, with their fields in any order and
their values cut in any way, is read as the entries of each kind in their order. -/
theorem decode_written_entries (doc : Document) : decode doc.bytes = .ok doc.outcome := by
  have hentries : Reads (Stack.empty.push .root) (doc.entries.flatMap fun e => e.1.segments e.2)
      (id {}) (id doc.read) :=
    Builds.flatMap fun e _ d => WrittenEntry.reads rfl e.1 e.2 d
  rw [doc.read_eq] at hentries
  have hroot :=
    (Balanced.flatMap fun e (_ : e ∈ doc.entries) => WrittenEntry.balanced e.1 e.2).element
      DeletionTag.root.isName_element doc.sound (Listing.bracket_not_mem_gap doc.inner)
      (Listing.bracket_not_mem_gap doc.trail)
  exact decode_document (Listing.bracket_not_mem_gap doc.lead) (Listing.head?_gap doc.lead)
    (Listing.passed_prolog doc.passed) hroot (DeletionTag.find_element (by decide)) rfl
    ((builds_gap rfl rfl doc.inner).append hentries) rfl

/-- A key that was not deleted, cut by a comment, before one that was. -/
example : decode (Utf8.ofText ("<DeleteResult>\n<Error><Code>AccessDenied</Code>" ++
    "<Key>a&amp;<!----><![CDATA[<b]]></Key></Error><Deleted> <Key>c</Key></Deleted>" ++
    "</DeleteResult>")) = .ok ⟨[⟨"c", none⟩], [⟨"a&<b", "AccessDenied", ""⟩]⟩ :=
  eq_ok_of_toOption (by decide +kernel)

end Deletion

end ObjectStore
