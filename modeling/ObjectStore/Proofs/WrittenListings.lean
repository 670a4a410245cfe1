import Mathlib.Data.List.Basic
import ObjectStore.Listing.Written
import ObjectStore.Proofs.CalendarDates
import ObjectStore.Proofs.DocumentParts
import ObjectStore.Proofs.Utf8Codec

/-!
# Listings that are written are read back

Each element of a written listing leaves the open elements as they were and changes one field of
what is read. The white space around it changes nothing, since the elements that hold others do
not read their text. So the page that is read is put together field by field, in the order of the
document.
-/

namespace ObjectStore

open Text Xml

attribute [ext] Owner Summary Listing

namespace ListingTag

/-- Whether an element holds others. -/
def isContainer : ListingTag → Bool
  | .root | .contents | .owner | .commonPrefixes => true
  | _ => false

theorem find_element {tag : ListingTag} (h : tag ≠ .unknown) :
    (Listing.table {}).find (localName (Utf8.ofText tag.element)) = tag := by
  cases tag with
  | unknown => exact absurd rfl h
  | _ => decide +kernel

theorem isName_element (tag : ListingTag) :
    (Utf8.ofText tag.element).all Markup.isNameByte = true := by
  cases tag <;> decide +kernel

end ListingTag

namespace Listing

/-! ## White space and texts -/

theorem bracket_not_mem_gap (gap : Gap) : 0x3C ∉ gap.bytes := by
  have hless : '<' ∉ gap.chars := fun h => absurd (gap.blank '<' h) (by decide)
  exact Utf8.not_mem_encode (by decide) hless

theorem textOf_gap (gap : Gap) :
    Decoding.textOf gap.bytes = .ok (String.ofList gap.chars) := by
  have hamp : '&' ∉ gap.chars := fun h => absurd (gap.blank '&' h) (by decide)
  rw [Decoding.textOf, Gap.bytes, Utf8.decode_encode]
  simp only [Reference.unescape_of_not_mem hamp]

theorem toNat_le_of_isBlank {c : Char} (h : isBlank c = true) : c.toNat ≤ 0x3000 := by
  simp only [isBlank, Bool.or_eq_true, Bool.and_eq_true, beq_iff_eq, decide_eq_true_eq] at h
  omega

/-- White space does not begin like a byte order mark. -/
theorem head?_gap (gap : Gap) : gap.bytes.head? ≠ some 0xEF := by
  obtain ⟨chars, blank⟩ := gap
  cases chars with
  | nil => exact fun h => nomatch h
  | cons c r =>
      -- The mark is U+FEFF, and the last blank character is U+3000.
      have hc := toNat_le_of_isBlank (blank c List.mem_cons_self)
      simp only [Gap.bytes, Utf8.encode_cons]
      unfold Utf8.encodeChar
      generalize c.toNat = n at hc
      simp only
      repeat' split
      all_goals
        simp only [List.cons_append, List.head?_cons, ne_eq, Option.some.injEq,
          ← UInt8.toNat_inj]
        simp (disch := omega) only [Utf8.toNat_toUInt8, UInt8.reduceToNat]
        omega

/-- What stands before the root is passed over, with the white space behind it. -/
theorem passed_prolog {prolog : List (Markup × Gap)}
    (h : ∀ p ∈ prolog, p.1.IsSound ∧ p.1.token? = none) :
    ∀ s ∈ prolog.map fun p => Segment.mk p.1 p.2.bytes, s.IsSound ∧ s.markup.token? = none := by
  intro s hs
  obtain ⟨p, hp, rfl⟩ := List.mem_map.1 hs
  obtain ⟨hsound, htoken⟩ := h p hp
  exact ⟨⟨hsound, bracket_not_mem_gap p.2⟩, htoken⟩

theorem balanced_leaf (tag : ListingTag) (text : String) (gap : Gap) :
    Balanced (leaf tag text gap) :=
  Balanced.nil.element tag.isName_element (by decide) (bracket_not_mem_escape text)
    (bracket_not_mem_gap gap)

theorem balanced_container {tag : ListingTag} {lead gap : Gap} {inner : List Segment}
    (h : Balanced inner) : Balanced (container tag lead inner gap) :=
  h.element tag.isName_element (by decide) (bracket_not_mem_gap lead) (bracket_not_mem_gap gap)

theorem OwnerItem.balanced (item : OwnerItem) (gap : Gap) : Balanced (item.segments gap) := by
  cases item with
  | id text => exact balanced_leaf .id text gap
  | displayName text => exact balanced_leaf .displayName text gap

theorem SummaryItem.balanced (item : SummaryItem) (gap : Gap) :
    Balanced (item.segments gap) := by
  cases item with
  | owner written =>
      exact balanced_container (Balanced.flatMap fun i _ => OwnerItem.balanced i.1 i.2)
  | _ => exact balanced_leaf _ _ gap

theorem PageItem.balanced (item : PageItem) (gap : Gap) : Balanced (item.segments gap) := by
  cases item with
  | contents written =>
      exact balanced_container (Balanced.flatMap fun i _ => SummaryItem.balanced i.1 i.2)
  | commonPrefix lead text trail => exact balanced_container (balanced_leaf _ text trail)
  | _ => exact balanced_leaf _ _ gap

/-! ## Elements -/

/-- What a listing reads of segments inside of the root. -/
def Reads (stack : Stack ListingTag) (segments : List Segment) (before after : Listing) : Prop :=
  Builds handling (table {}) stack (segments.flatMap Segment.tokens) before after

variable {stack : Stack ListingTag} {outer tag : ListingTag} {page after : Listing}

theorem builds_gap (htop : stack.top = some outer) (houter : outer.isContainer = true)
    (gap : Gap) :
    Builds handling (table {}) stack (Lexer.textToken gap.bytes.reverse).toList page page := by
  refine Builds.text htop (textOf_gap gap) (fun _ => rfl) fun _ => ?_
  cases outer with
  | root | contents | owner | commonPrefixes => rfl
  | _ => cases houter

/-- An element that holds a text does what its handler does with the text. -/
theorem reads_leaf (htop : stack.top = some outer) (houter : outer.isContainer = true)
    (hknown : tag ≠ .unknown) (hleaf : tag.isContainer = false) {text : String} {gap : Gap}
    (hempty : text = "" → page = after)
    (htext : text ≠ "" → onText tag text (stack.push tag) page = .ok after) :
    Reads stack (leaf tag text gap) page after := by
  have hstart : handling.onStart tag page = (page, none) := by
    cases tag with
    | root | contents | owner | commonPrefixes => cases hleaf
    | _ => rfl
  have hend : handling.onEnd tag after = (after, none) := by
    cases tag with
    | root | contents | owner | commonPrefixes => cases hleaf
    | _ => rfl
  refine Builds.element (ListingTag.find_element hknown) hstart ?_ hend
    (builds_gap htop houter gap)
  rw [List.flatMap_nil, List.append_nil]
  -- An empty text is no token, so the handler is not called for it.
  refine Builds.text rfl (Decoding.textOf_escape text) (fun h => hempty (escape_eq_nil h))
    fun h => ?_
  have hne : text ≠ "" := by
    rintro rfl
    exact h rfl
  change effect page (onText tag text (stack.push tag) page) = (after, none)
  rw [htext hne]
  rfl

/-- An element that holds others does what these do after its start tag. -/
theorem reads_container (htop : stack.top = some outer) (houter : outer.isContainer = true)
    (htag : tag.isContainer = true) (hroot : tag ≠ .root) {lead gap : Gap}
    {inner : List Segment} {started : Listing} (hstart : onStart tag page = .ok started)
    (hinner : Reads (stack.push tag) inner started after) :
    Reads stack (container tag lead inner gap) page after := by
  have hknown : tag ≠ .unknown := by
    rintro rfl
    cases htag
  have hstart' : handling.onStart tag page = (started, none) := by
    change effect page (onStart tag page) = (started, none)
    rw [hstart]
    rfl
  have hend : handling.onEnd tag after = (after, none) := by
    change (onEnd tag after, none) = (after, none)
    rw [onEnd, if_neg hroot]
  exact Builds.element (ListingTag.find_element hknown) hstart'
    ((builds_gap rfl htag lead).append hinner) hend (builds_gap htop houter gap)

/-! ## Owners -/

/-- What an element adds to an owner. -/
def OwnerItem.apply (o : Owner) : OwnerItem → Owner
  | .id text => { o with id := o.id ++ text }
  | .displayName text => { o with displayName := o.displayName ++ text }

/-- A page that has come to the object `s` after other ones. -/
def withLast (page : Listing) (before : List Summary) (s : Summary) : Listing :=
  { page with summaries := before ++ [s] }

variable {before : List Summary} {s : Summary}

theorem onSummary_withLast (element : String) (f : Summary → Summary) :
    onSummary element f (page.withLast before s) = .ok (page.withLast before (f s)) := by
  simp [onSummary, withLast]

/-- A page whose last object has the owner `o`. -/
def withOwner (page : Listing) (before : List Summary) (s : Summary) (o : Owner) : Listing :=
  page.withLast before { s with owner := some o }

theorem OwnerItem.reads (htop : stack.top = some .owner) (item : OwnerItem) (gap : Gap)
    (o : Owner) :
    Reads stack (item.segments gap) (page.withOwner before s o)
      (page.withOwner before s (OwnerItem.apply o item)) := by
  cases item with
  | id text =>
      refine reads_leaf htop rfl (by decide) rfl ?_ fun _ => ?_
      · rintro rfl
        simp [OwnerItem.apply]
      · rw [onText, Stack.parent_push, htop]
        exact onSummary_withLast _ _
  | displayName text =>
      refine reads_leaf htop rfl (by decide) rfl ?_ fun _ => ?_
      · rintro rfl
        simp [OwnerItem.apply]
      · rw [onText, Stack.parent_push, htop]
        exact onSummary_withLast _ _

/-- A field of what is put together holds what the items bring for this field. -/
theorem foldl_field {S I V X : Type} {apply : S → I → S} {field : S → V} {part : I → Option X}
    {add : V → X → V}
    (h : ∀ s i, field (apply s i) =
      match part i with
      | none => field s
      | some x => add (field s) x)
    (items : List I) (s : S) :
    field (items.foldl apply s) = (items.filterMap part).foldl add (field s) := by
  induction items generalizing s with
  | nil => rfl
  | cons i r ih =>
      rw [List.foldl_cons, ih, h, List.filterMap_cons]
      cases part i with
      | none => rfl
      | some x => rfl

/-- The items of a written owner make up the owner. -/
theorem WrittenOwner.foldl_apply (written : WrittenOwner) :
    written.items.foldl (fun o i => OwnerItem.apply o i.1) {} = written.owner := by
  have hid : (written.items.foldl (fun o i => OwnerItem.apply o i.1) {}).id =
      (written.items.filterMap (·.1.id?)).foldl (· ++ ·) "" :=
    foldl_field (by rintro o ⟨_ | _, _⟩ <;> rfl) _ _
  have hname : (written.items.foldl (fun o i => OwnerItem.apply o i.1) {}).displayName =
      (written.items.filterMap (·.1.displayName?)).foldl (· ++ ·) "" :=
    foldl_field (by rintro o ⟨_ | _, _⟩ <;> rfl) _ _
  rw [written.id] at hid
  rw [written.displayName] at hname
  ext1
  · rw [hid]
    simp
  · rw [hname]
    simp

/-! ## Objects -/

/-- What an element brings to an object. -/
def SummaryItem.apply (s : Summary) : SummaryItem → Summary
  | .key text => { s with key := s.key ++ text }
  | .etag text => { s with etag := some text }
  | .size n => { s with size := n }
  | .lastModified t => { s with lastModified := some t }
  | .storageClass text => { s with storageClass := appended s.storageClass text }
  | .owner written => { s with owner := some written.owner }

/-- An element whose value is read as it was written. -/
def SummaryItem.IsWritable : SummaryItem → Prop
  | .etag text => text.toList.head? ≠ some '\x22' ∧ text.toList.getLast? ≠ some '\x22'
  | .size n => n < word64
  | .lastModified t => t.IsStampable
  | .storageClass text => text ≠ ""
  | .key _ | .owner _ => True

theorem isBlank_of_isDigit {c : Char} (h : c.isDigit = true) : isBlank c = false := by
  have hrange : 48 ≤ c.toNat ∧ c.toNat ≤ 57 := by
    simpa [Char.isDigit, UInt32.le_iff_toNat_le] using h
  refine Bool.eq_false_iff.2 fun hblank => ?_
  simp only [isBlank, Bool.or_eq_true, Bool.and_eq_true, beq_iff_eq, decide_eq_true_eq] at hblank
  omega

theorem trim_toString (n : Nat) : trim (toString n) = toString n := by
  have hblank : ∀ c ∈ (toString n).toList, isBlank c = false := fun c hc =>
    isBlank_of_isDigit (Decimal.isDigit_toString hc)
  rw [trim, strip, stripList_of_ends, String.ofList_toList]
  · exact fun c hc => hblank c (List.mem_of_head? hc)
  · exact fun c hc => hblank c (List.mem_of_getLast? hc)

theorem readNumber_toString {limit n : Nat} (h : n < limit) (element : String) :
    readNumber limit element (toString n) = .ok n := by
  have hbelow : Decimal.below? limit (toString n) = some n := by
    rw [Decimal.below?, Decimal.unsigned?_toString]
    simp [h]
  rw [readNumber, trim_toString, hbelow]

/-- The quotes around an entity tag are taken off, and nothing else. -/
theorem unquoteEtag_quoted {text : String} (hhead : text.toList.head? ≠ some '\x22')
    (hlast : text.toList.getLast? ≠ some '\x22') :
    unquoteEtag ("\x22" ++ text ++ "\x22") = text := by
  have hquoted : ("\x22" ++ text ++ "\x22").toList = '\x22' :: (text.toList ++ ['\x22']) := by
    simp
  have htrim : trim ("\x22" ++ text ++ "\x22") = "\x22" ++ text ++ "\x22" := by
    rw [trim, strip, stripList_of_ends, String.ofList_toList]
    · intro c hc
      rw [hquoted] at hc
      cases Option.some.inj hc
      decide
    · intro c hc
      rw [hquoted, ← List.cons_append, List.getLast?_concat] at hc
      cases Option.some.inj hc
      decide
  rw [unquoteEtag, htrim, strip, hquoted, stripList_wrapped (by decide), String.ofList_toList]
  · intro c hc
    simpa using fun h : c = '\x22' => hhead (h ▸ hc)
  · intro c hc
    simpa using fun h : c = '\x22' => hlast (h ▸ hc)

theorem SummaryItem.reads (htop : stack.top = some .contents) {item : SummaryItem}
    (hitem : item.IsWritable) (gap : Gap) (s : Summary) :
    Reads stack (item.segments gap) (page.withLast before s)
      (page.withLast before (SummaryItem.apply s item)) := by
  cases item with
  | key text =>
      refine reads_leaf htop rfl (by decide) rfl ?_ fun _ => onSummary_withLast _ _
      rintro rfl
      simp [SummaryItem.apply]
  | etag text =>
      refine reads_leaf htop rfl (by decide) rfl (fun h => ?_) fun _ => ?_
      · simp at h
      · rw [onText, unquoteEtag_quoted hitem.1 hitem.2]
        exact onSummary_withLast _ _
  | size n =>
      refine reads_leaf htop rfl (by decide) rfl (fun h => absurd h Nat.repr_ne_empty) fun _ => ?_
      rw [onText, readNumber_toString hitem]
      exact onSummary_withLast _ _
  | lastModified t =>
      have hread := Calendar.Timestamp.parse?_text hitem
      refine reads_leaf htop rfl (by decide) rfl (fun h => ?_) fun _ => ?_
      · have hempty : Calendar.Timestamp.parse? "" = none := by decide
        rw [h, hempty] at hread
        cases hread
      · rw [onText, hread]
        exact onSummary_withLast _ _
  | storageClass text =>
      refine reads_leaf htop rfl (by decide) rfl (fun h => absurd h hitem) fun _ => ?_
      exact onSummary_withLast _ _
  | owner written =>
      have hstart : onStart .owner (page.withLast before s) =
          .ok (page.withOwner before s {}) := onSummary_withLast _ _
      have hitems : Reads (stack.push .owner) (written.items.flatMap fun i => i.1.segments i.2)
          (page.withOwner before s {})
          (page.withOwner before s
            (written.items.foldl (fun o i => OwnerItem.apply o i.1) {})) :=
        Builds.flatMap fun i _ o => OwnerItem.reads rfl i.1 i.2 o
      rw [written.foldl_apply] at hitems
      exact reads_container htop rfl rfl (by decide) hstart hitems

theorem foldl_some {X : Type} (field : Option X) :
    field.toList.foldl (fun _ x => some x) none = field := by
  cases field <;> rfl

theorem foldl_appended (field : Option String) : field.toList.foldl appended none = field := by
  cases field with
  | none => rfl
  | some text => simp [appended]

theorem foldl_concat {X : Type} (l : List X) : l.foldl (fun l x => l ++ [x]) [] = l := by
  rw [List.foldl_append_eq_append, List.nil_append, ← List.flatMap_def]
  exact List.flatMap_singleton' _

/-- The object that is read of the items, in the bucket of its page. -/
def WrittenSummary.readIn (written : WrittenSummary) (bucket : String) : Summary :=
  written.items.foldl (fun s i => SummaryItem.apply s i.1) { bucket := bucket }

/-- The items of a written object make up the object in its bucket. -/
theorem WrittenSummary.readIn_eq (written : WrittenSummary) (bucket : String) :
    written.readIn bucket = { written.summary with bucket := bucket } := by
  have hbucket : (written.readIn bucket).bucket =
      (written.items.filterMap fun _ => (none : Option Unit)).foldl (fun b _ => b) bucket :=
    foldl_field (by rintro s ⟨_ | _, _⟩ <;> rfl) _ _
  have hkey : (written.readIn bucket).key =
      (written.items.filterMap (·.1.key?)).foldl (· ++ ·) "" :=
    foldl_field (by rintro s ⟨_ | _, _⟩ <;> rfl) _ _
  have hetag : (written.readIn bucket).etag =
      (written.items.filterMap (·.1.etag?)).foldl (fun _ x => some x) none :=
    foldl_field (by rintro s ⟨_ | _, _⟩ <;> rfl) _ _
  have hsize : (written.readIn bucket).size =
      (written.items.filterMap (·.1.size?)).foldl (fun _ n => n) 0 :=
    foldl_field (by rintro s ⟨_ | _, _⟩ <;> rfl) _ _
  have hlastModified : (written.readIn bucket).lastModified =
      (written.items.filterMap (·.1.lastModified?)).foldl (fun _ x => some x) none :=
    foldl_field (by rintro s ⟨_ | _, _⟩ <;> rfl) _ _
  have hstorageClass : (written.readIn bucket).storageClass =
      (written.items.filterMap (·.1.storageClass?)).foldl appended none :=
    foldl_field (by rintro s ⟨_ | _, _⟩ <;> rfl) _ _
  have howner : (written.readIn bucket).owner =
      (written.items.filterMap (·.1.owner?)).foldl (fun _ x => some x) none :=
    foldl_field (by rintro s ⟨_ | _, _⟩ <;> rfl) _ _
  ext1
  · rw [hbucket, List.filterMap_none]
    rfl
  · rw [hkey, written.key]
    simp
  · rw [hetag, written.etag, foldl_some]
  · rw [hsize, written.size]
    rfl
  · rw [hlastModified, written.lastModified, foldl_some]
  · rw [hstorageClass, written.storageClass, foldl_appended]
  · rw [howner, written.owner, foldl_some]

/-- What an item brings is part of what all items bring. -/
theorem mem_of_part {I X : Type} {items : List I} {part : I → Option X} {brought : List X}
    (h : items.filterMap part = brought) {i : I} (hi : i ∈ items) {x : X}
    (hx : part i = some x) : x ∈ brought := by
  rw [← h]
  exact List.mem_filterMap.2 ⟨i, hi, hx⟩

/-- The elements of a writable object are writable. -/
theorem WrittenSummary.isWritable (written : WrittenSummary)
    (h : IsWritableSummary written.summary) : ∀ i ∈ written.items, i.1.IsWritable := by
  rintro ⟨item, gap⟩ hi
  cases item with
  | key text => trivial
  | owner w => trivial
  | etag text => exact h.etag text (Option.mem_toList.1 (mem_of_part written.etag hi rfl))
  | size n =>
      have hn := List.mem_singleton.1 (mem_of_part written.size hi rfl)
      exact hn ▸ h.size
  | lastModified t =>
      exact h.lastModified t (Option.mem_toList.1 (mem_of_part written.lastModified hi rfl))
  | storageClass text =>
      rintro rfl
      exact h.storageClass (Option.mem_toList.1 (mem_of_part written.storageClass hi rfl))

/-! ## Pages -/

/-- What an element brings to a page. -/
def PageItem.apply (page : Listing) : PageItem → Listing
  | .name text => { page with bucket := page.bucket ++ text }
  | .keyPrefix text => { page with keyPrefix := appended page.keyPrefix text }
  | .marker text => { page with marker := appended page.marker text }
  | .delimiter text => { page with delimiter := appended page.delimiter text }
  | .maxKeys n => { page with maxKeys := some n }
  | .truncated b => { page with truncated := b }
  | .contents written => page.withLast page.summaries (written.readIn page.bucket)
  | .commonPrefix _ text _ => { page with commonPrefixes := page.commonPrefixes ++ [text] }

/-- An element whose value is read as it was written. -/
def PageItem.IsWritable : PageItem → Prop
  | .keyPrefix text | .marker text | .delimiter text => text ≠ ""
  | .maxKeys n => n < word32
  | .contents written => IsWritableSummary written.summary
  | .name _ | .truncated _ | .commonPrefix _ _ _ => True

theorem readBool_toString (b : Bool) (element : String) :
    readBool element (toString b) = .ok b := by
  cases b with
  | false => rfl
  | true => rfl

theorem PageItem.reads (htop : stack.top = some .root) {item : PageItem}
    (hitem : item.IsWritable) (gap : Gap) (page : Listing) :
    Reads stack (item.segments gap) page (PageItem.apply page item) := by
  cases item with
  | name text =>
      refine reads_leaf htop rfl (by decide) rfl ?_ fun _ => rfl
      rintro rfl
      simp [PageItem.apply]
  | keyPrefix text =>
      refine reads_leaf htop rfl (by decide) rfl (fun h => absurd h hitem) fun _ => ?_
      rw [onText, Stack.parent_push, htop]
      rfl
  | marker text => exact reads_leaf htop rfl (by decide) rfl (fun h => absurd h hitem) fun _ => rfl
  | delimiter text =>
      exact reads_leaf htop rfl (by decide) rfl (fun h => absurd h hitem) fun _ => rfl
  | maxKeys n =>
      refine reads_leaf htop rfl (by decide) rfl (fun h => absurd h Nat.repr_ne_empty) fun _ => ?_
      rw [onText, readNumber_toString hitem]
      rfl
  | truncated b =>
      refine reads_leaf htop rfl (by decide) rfl (fun h => ?_) fun _ => ?_
      · cases b <;> exact absurd h (by decide)
      · rw [onText, readBool_toString]
        rfl
  | contents written =>
      have hstart : onStart .contents page =
          .ok (page.withLast page.summaries { bucket := page.bucket }) := rfl
      have hitems : Reads (stack.push .contents) (written.items.flatMap fun i => i.1.segments i.2)
          (page.withLast page.summaries { bucket := page.bucket })
          (page.withLast page.summaries (written.readIn page.bucket)) :=
        Builds.flatMap fun i hi s => SummaryItem.reads rfl (written.isWritable hitem i hi) i.2 s
      exact reads_container htop rfl rfl (by decide) hstart hitems
  | commonPrefix lead text trail =>
      have hstart : onStart .commonPrefixes page =
          .ok { page with commonPrefixes := page.commonPrefixes ++ [""] } := rfl
      refine reads_container htop rfl rfl (by decide) hstart ?_
      refine reads_leaf rfl rfl (by decide) rfl ?_ fun _ => ?_
      · rintro rfl
        rfl
      · rw [onText, Stack.parent_push, Stack.top_push, if_pos rfl]
        simp [onCommonPrefix, PageItem.apply]

/-- A vacant element brings nothing. -/
theorem PageItem.reads_of_isVacant (htop : stack.top = some .root) {item : PageItem}
    (hitem : item.isVacant = true) (gap : Gap) (page : Listing) :
    Reads stack (item.segments gap) page page := by
  cases item with
  | keyPrefix text | marker text | delimiter text =>
      have htext : text = "" := by simpa [isVacant] using hitem
      exact reads_leaf htop rfl (by decide) rfl (fun _ => rfl) fun h => absurd htext h
  | _ => cases hitem

namespace Document

variable {doc : Document} {page : Listing}

/-- The elements of a document that writes a writable page are writable. -/
theorem Writes.isWritable (h : doc.Writes page) (hpage : page.IsWritable) :
    ∀ i ∈ doc.items, i.1.IsWritable := by
  rintro ⟨item, gap⟩ hi
  cases item with
  | name text => trivial
  | truncated b => trivial
  | commonPrefix lead text trail => trivial
  | keyPrefix text =>
      rintro rfl
      exact hpage.keyPrefix (Option.mem_toList.1 (mem_of_part h.keyPrefix hi rfl))
  | marker text =>
      rintro rfl
      exact hpage.marker (Option.mem_toList.1 (mem_of_part h.marker hi rfl))
  | delimiter text =>
      rintro rfl
      exact hpage.delimiter (Option.mem_toList.1 (mem_of_part h.delimiter hi rfl))
  | maxKeys n => exact hpage.maxKeys n (Option.mem_toList.1 (mem_of_part h.maxKeys hi rfl))
  | contents written => exact hpage.summaries _ (mem_of_part h.summaries hi rfl)

/-- The page that is read of the elements inside of the root. -/
def read (doc : Document) : Listing := doc.items.foldl (fun p i => PageItem.apply p i.1) {}

theorem foldl_bucket (items : List (PageItem × Gap)) (p : Listing) :
    (items.foldl (fun p i => PageItem.apply p i.1) p).bucket =
      (items.filterMap (·.1.name?)).foldl (· ++ ·) p.bucket :=
  foldl_field (by rintro p ⟨_ | _, _⟩ <;> rfl) _ _

theorem summaries_foldl_before {items : List (PageItem × Gap)} {p : Listing}
    (h : items.filterMap (·.1.summary?) = []) :
    (items.foldl (fun p i => PageItem.apply p i.1) p).summaries = p.summaries := by
  induction items generalizing p with
  | nil => rfl
  | cons i r ih =>
      obtain ⟨item, gap⟩ := i
      cases item with
      | contents written => cases h
      | _ => exact ih h

theorem summaries_foldl_after {items : List (PageItem × Gap)} {p : Listing}
    (h : items.filterMap (·.1.name?) = []) :
    (items.foldl (fun p i => PageItem.apply p i.1) p).summaries =
      p.summaries ++ (items.filterMap (·.1.summary?)).map fun s =>
        { s with bucket := p.bucket } := by
  induction items generalizing p with
  | nil => simp
  | cons i r ih =>
      obtain ⟨item, gap⟩ := i
      cases item with
      | name text => cases h
      | contents written =>
          -- The object takes over the name that stands, which is not added to any more.
          refine (ih h).trans ?_
          simp [PageItem.apply, withLast, PageItem.summary?, written.readIn_eq]
      | _ => exact ih h

/-- The objects are in the bucket of the page, whose name comes before them. -/
theorem Writes.read_summaries (h : doc.Writes page) :
    doc.read.summaries = page.summaries.map fun s => { s with bucket := page.bucket } := by
  obtain ⟨before, after, hitems, hbefore, hafter⟩ := h.nameFirst
  have hname := h.name
  have hsummaries := h.summaries
  rw [hitems, List.filterMap_append, hafter, List.append_nil] at hname
  rw [hitems, List.filterMap_append, hbefore, List.nil_append] at hsummaries
  have hbucket : (before.foldl (fun p i => PageItem.apply p i.1) {}).bucket = page.bucket := by
    rw [foldl_bucket, hname]
    simp
  rw [read, hitems, List.foldl_append, summaries_foldl_after hafter,
    summaries_foldl_before hbefore, hbucket, hsummaries]
  rfl

/-- The elements of a document make up the page that it writes. -/
theorem Writes.read_eq (h : doc.Writes page) : doc.read = page.gathered := by
  have hbucket : doc.read.bucket = (doc.items.filterMap (·.1.name?)).foldl (· ++ ·) "" :=
    foldl_bucket _ _
  have hkeyPrefix : doc.read.keyPrefix =
      (doc.items.filterMap (·.1.keyPrefix?)).foldl appended none :=
    foldl_field (by rintro p ⟨_ | _, _⟩ <;> rfl) _ _
  have hmarker : doc.read.marker =
      (doc.items.filterMap (·.1.marker?)).foldl appended none :=
    foldl_field (by rintro p ⟨_ | _, _⟩ <;> rfl) _ _
  have hdelimiter : doc.read.delimiter =
      (doc.items.filterMap (·.1.delimiter?)).foldl appended none :=
    foldl_field (by rintro p ⟨_ | _, _⟩ <;> rfl) _ _
  have hmaxKeys : doc.read.maxKeys =
      (doc.items.filterMap (·.1.maxKeys?)).foldl (fun _ x => some x) none :=
    foldl_field (by rintro p ⟨_ | _, _⟩ <;> rfl) _ _
  have htruncated : doc.read.truncated =
      (doc.items.filterMap (·.1.truncated?)).foldl (fun _ b => b) false :=
    foldl_field (by rintro p ⟨_ | _, _⟩ <;> rfl) _ _
  have hcommonPrefixes : doc.read.commonPrefixes =
      (doc.items.filterMap (·.1.commonPrefix?)).foldl (fun l t => l ++ [t]) [] :=
    foldl_field (by rintro p ⟨_ | _, _⟩ <;> rfl) _ _
  have hnext : doc.read.nextMarker =
      (doc.items.filterMap fun _ => (none : Option Unit)).foldl (fun m _ => m) none :=
    foldl_field (by rintro p ⟨_ | _, _⟩ <;> rfl) _ _
  unfold gathered
  ext1
  · rw [hbucket, h.name]
    simp
  · rw [hkeyPrefix, h.keyPrefix, foldl_appended]
  · rw [hmarker, h.marker, foldl_appended]
  · rw [hdelimiter, h.delimiter, foldl_appended]
  · rw [hmaxKeys, h.maxKeys, foldl_some]
  · rw [htruncated, h.truncated]
    rfl
  · rw [hnext, List.filterMap_none]
    rfl
  · exact h.read_summaries
  · rw [hcommonPrefixes, h.commonPrefixes, foldl_concat]

end Document

/-- What the elements of a page bring, one kind of element after the other. -/
theorem filterMap_ofPage {X : Type} (part : PageItem → Option X) (gap : Gap) (page : Listing) :
    (Document.ofPage gap page).items.filterMap (fun i => part i.1) =
      (part (.name page.bucket)).toList ++
        page.keyPrefix.toList.filterMap (fun text => part (.keyPrefix text)) ++
        page.marker.toList.filterMap (fun text => part (.marker text)) ++
        page.maxKeys.toList.filterMap (fun n => part (.maxKeys n)) ++
        page.delimiter.toList.filterMap (fun text => part (.delimiter text)) ++
        (part (.truncated page.truncated)).toList ++
        page.summaries.filterMap (fun s => part (.contents (.ofSummary gap s))) ++
        page.commonPrefixes.filterMap fun text => part (.commonPrefix gap text gap) := by
  have hcons (item : PageItem) (r : List PageItem) :
      (item :: r).filterMap part = (part item).toList ++ r.filterMap part := by
    rw [List.filterMap_cons]
    cases part item <;> rfl
  rw [Document.ofPage, List.filterMap_map]
  change (PageItem.ofPage gap page).filterMap part = _
  simp only [PageItem.ofPage, hcons, List.filterMap_append, List.filterMap_map,
    List.append_assoc, Function.comp_def]

/-- Every page is written by a document, with any white space around its elements. -/
theorem Document.writes_ofPage (gap : Gap) (page : Listing) :
    (Document.ofPage gap page).Writes page where
  name := (filterMap_ofPage _ gap page).trans (by simp [PageItem.name?])
  keyPrefix := (filterMap_ofPage _ gap page).trans (by simp [PageItem.keyPrefix?])
  marker := (filterMap_ofPage _ gap page).trans (by simp [PageItem.marker?])
  delimiter := (filterMap_ofPage _ gap page).trans (by simp [PageItem.delimiter?])
  maxKeys := (filterMap_ofPage _ gap page).trans (by simp [PageItem.maxKeys?])
  truncated := (filterMap_ofPage _ gap page).trans (by simp [PageItem.truncated?])
  summaries := (filterMap_ofPage _ gap page).trans
    (by simp [PageItem.summary?, WrittenSummary.ofSummary])
  commonPrefixes :=
    (filterMap_ofPage _ gap page).trans (by simp [PageItem.commonPrefix?])
  nameFirst := by
    refine ⟨[(.name page.bucket, gap)], _, rfl, rfl, ?_⟩
    simp [Function.comp_def, List.filterMap_map, PageItem.name?]

/-! ## Whole documents -/

/-- Texts are in the order of their bytes. -/
theorem byteMax_eq (a b : String) : byteMax a b = if a < b then b else a := by
  simp only [byteMax, Utf8.ofText_lt_iff]

theorem greatestEntry_eq_merge (page : Listing) :
    greatestEntry page = Option.merge byteMax
      (Option.merge byteMax page.nextMarker (page.summaries.getLast?.map (·.key)))
      page.commonPrefixes.getLast? := by
  rw [show byteMax = fun a b => if a < b then b else a from funext₂ byteMax_eq, greatestEntry]
  cases page.nextMarker <;> cases page.summaries.getLast?.map (·.key) <;>
    cases page.commonPrefixes.getLast? <;> rfl

theorem greatestEntry_eq (h : page.nextMarker = none) :
    greatestEntry page =
      Option.merge byteMax (page.summaries.getLast?.map (·.key)) page.commonPrefixes.getLast? := by
  rw [greatestEntry_eq_merge, h, Option.merge_none_left]

/-- The marker of a page is settled at the end of its document. -/
theorem settled_eq (page : Listing) :
    (if (onEnd .root page.gathered).truncated then onEnd .root page.gathered
      else { onEnd .root page.gathered with nextMarker := none }) = page.settled := by
  have hlast : page.gathered.summaries.getLast?.map (·.key) =
      page.summaries.getLast?.map (·.key) := by
    rw [gathered, List.getLast?_map, Option.map_map]
    rfl
  have hgreatest : greatestEntry page.gathered =
      Option.merge byteMax (page.summaries.getLast?.map (·.key)) page.commonPrefixes.getLast? := by
    rw [greatestEntry_eq rfl, hlast]
    rfl
  rw [onEnd, if_pos rfl, hgreatest, settled]
  unfold gathered
  cases page.truncated <;> rfl

/-- What the elements of a written page come to at the end of the root, with vacant elements among
them or without. -/
theorem read_written {doc : Document} (hwrites : doc.essential.Writes page)
    (hpage : page.IsWritable) :
    Xml.decode handling (table {}) doc.bytes {} = .ok (onEnd .root page.gathered) := by
  have hread : doc.items.foldl (fun p i => if !i.1.isVacant then PageItem.apply p i.1 else p) {} =
      doc.essential.read :=
    List.foldl_filter.symm
  have hitems : Reads (Stack.empty.push .root) (doc.items.flatMap fun i => i.1.segments i.2)
      (id {}) (id doc.essential.read) := by
    rw [← hread]
    refine Builds.flatMap fun i hi p => ?_
    cases hvacant : i.1.isVacant with
    | true => exact PageItem.reads_of_isVacant rfl hvacant i.2 p
    | false =>
        refine PageItem.reads rfl (hwrites.isWritable hpage i ?_) i.2 p
        exact List.mem_filter.2 ⟨hi, by simp [hvacant]⟩
  have hroot := (Balanced.flatMap fun i (_ : i ∈ doc.items) => PageItem.balanced i.1 i.2).element
    ListingTag.root.isName_element doc.sound (bracket_not_mem_gap doc.inner)
    (bracket_not_mem_gap doc.trail)
  rw [← hwrites.read_eq]
  exact decode_document (bracket_not_mem_gap doc.lead) (head?_gap doc.lead)
    (passed_prolog doc.passed) hroot (ListingTag.find_element (by decide)) rfl
    ((builds_gap rfl rfl doc.inner).append hitems) rfl

/-- A writable page has no vacant elements. -/
theorem essential_eq_self {doc : Document} (hwrites : doc.Writes page) (hpage : page.IsWritable) :
    doc.essential = doc := by
  have hitems : ∀ i ∈ doc.items, (!i.1.isVacant) = true := by
    intro i hi
    have hitem := hwrites.isWritable hpage i hi
    cases hi : i.1 with
    | keyPrefix text | marker text | delimiter text =>
        rw [hi] at hitem
        have htext : text ≠ "" := hitem
        simpa [PageItem.isVacant] using htext
    | _ => rfl
  rw [Document.essential, List.filter_eq_self.2 hitems]

/-- Every document that writes a page, with its elements in any order and with white space
around them, is read as this page. -/
theorem decode_written {doc : Document} (hwrites : doc.Writes page) (hpage : page.IsWritable) :
    decode {} doc.bytes = .ok page.settled := by
  rw [decode, read_written ((essential_eq_self hwrites hpage).symm ▸ hwrites) hpage]
  exact congrArg Except.ok (settled_eq page)

/-- A page that is cut short, with one object and one group of keys. -/
def backupPage : Listing where
  bucket := "backup"
  maxKeys := some 2
  delimiter := some "/"
  truncated := true
  summaries :=
    [{ key := "a & b.txt", etag := some "9e107d9d", size := 434234,
       lastModified := some ⟨1255369830, 0⟩, storageClass := some "STANDARD",
       owner := some ⟨"75aa57f0", "owner"⟩ }]
  commonPrefixes := ["a/"]

theorem decode_written_backupPage :
    (Document.ofPage .newline backupPage).Writes backupPage ∧ backupPage.IsWritable ∧
      decode {} (Document.ofPage .newline backupPage).bytes = .ok { backupPage with
        summaries := backupPage.summaries.map fun s => { s with bucket := "backup" }
        nextMarker := some "a/" } := by
  have hwrites := Document.writes_ofPage .newline backupPage
  have hsummary : ∀ s ∈ backupPage.summaries, IsWritableSummary s := by
    intro s hs
    cases List.mem_singleton.1 hs
    refine ⟨fun text h => ?_, by decide, fun t h => ?_, by decide⟩
    · cases h
      decide
    · cases h
      exact ⟨by decide +kernel, by decide⟩
  have hpage : backupPage.IsWritable :=
    ⟨by decide, by decide, by decide, fun n h => by cases h; decide, hsummary⟩
  have hmarker : byteMax "a & b.txt" "a/" = "a/" := by decide +kernel
  refine ⟨hwrites, hpage, (decode_written hwrites hpage).trans ?_⟩
  simp only [settled, gathered, backupPage, if_pos, List.getLast?_singleton, Option.map_some,
    Option.merge_some_some, hmarker]

end Listing

end ObjectStore
