import ObjectStore.Listing.Document
import ObjectStore.Xml.Markup

/-!
# Listings as documents

Which element of a `ListBucketResult` document holds which field of a listing, and how its value
is spelt. The elements in a container may come in any order, with white space around each of
them, except that the name of the bucket comes before the objects, which take it over.
-/

namespace ObjectStore

open Text Xml

/-- The name of an element. -/
def ListingTag.element : ListingTag → String
  | .root => "ListBucketResult"
  | .name => "Name"
  | .keyPrefix => "Prefix"
  | .marker => "Marker"
  | .nextMarker => "NextMarker"
  | .delimiter => "Delimiter"
  | .maxKeys => "MaxKeys"
  | .isTruncated => "IsTruncated"
  | .contents => "Contents"
  | .key => "Key"
  | .etag => "ETag"
  | .size => "Size"
  | .lastModified => "LastModified"
  | .storageClass => "StorageClass"
  | .owner => "Owner"
  | .id => "ID"
  | .displayName => "DisplayName"
  | .commonPrefixes => "CommonPrefixes"
  | .unknown => "Unknown"

namespace Listing

/-- White space around elements. -/
structure Gap where
  chars : List Char
  blank : ∀ c ∈ chars, isBlank c = true

namespace Gap

def bytes (gap : Gap) : List UInt8 := Utf8.encode gap.chars

/-- Each element on a line of its own. -/
def newline : Gap := ⟨['\n'], by simp [isBlank]⟩

end Gap

/-- An element that holds a text, and the white space after it. -/
def leaf (tag : ListingTag) (text : String) (gap : Gap) : List Segment :=
  element (Utf8.ofText tag.element) [] (Utf8.encode (Reference.escape text.toList)) [] gap.bytes

/-- An element that holds others, and the white space before these and after it. -/
def container (tag : ListingTag) (lead : Gap) (inner : List Segment) (gap : Gap) :
    List Segment :=
  element (Utf8.ofText tag.element) [] lead.bytes inner gap.bytes

/-! ## Owners -/

/-- An element of an owner. -/
inductive OwnerItem
  | id (text : String)
  | displayName (text : String)

namespace OwnerItem

def id? : OwnerItem → Option String
  | .id text => some text
  | .displayName _ => none

def displayName? : OwnerItem → Option String
  | .id _ => none
  | .displayName text => some text

def segments (item : OwnerItem) (gap : Gap) : List Segment :=
  match item with
  | .id text => leaf .id text gap
  | .displayName text => leaf .displayName text gap

end OwnerItem

/-- An owner as it is written. -/
structure WrittenOwner where
  owner : Owner
  lead : Gap
  items : List (OwnerItem × Gap)
  id : items.filterMap (·.1.id?) = [owner.id]
  displayName : items.filterMap (·.1.displayName?) = [owner.displayName]

/-- An owner with the same white space around all elements. -/
def WrittenOwner.ofOwner (gap : Gap) (o : Owner) : WrittenOwner where
  owner := o
  lead := gap
  items := [(.id o.id, gap), (.displayName o.displayName, gap)]
  id := rfl
  displayName := rfl

/-! ## Objects -/

/-- An element of an object. -/
inductive SummaryItem
  | key (text : String)
  | etag (text : String)
  | size (n : Nat)
  | lastModified (t : Calendar.Instant)
  | storageClass (text : String)
  | owner (written : WrittenOwner)

namespace SummaryItem

def key? : SummaryItem → Option String
  | .key text => some text
  | _ => none

def etag? : SummaryItem → Option String
  | .etag text => some text
  | _ => none

def size? : SummaryItem → Option Nat
  | .size n => some n
  | _ => none

def lastModified? : SummaryItem → Option Calendar.Instant
  | .lastModified t => some t
  | _ => none

def storageClass? : SummaryItem → Option String
  | .storageClass text => some text
  | _ => none

def owner? : SummaryItem → Option Owner
  | .owner written => some written.owner
  | _ => none

/-- The element; entity tags are written in quotes. -/
def segments (item : SummaryItem) (gap : Gap) : List Segment :=
  match item with
  | .key text => leaf .key text gap
  | .etag text => leaf .etag ("\x22" ++ text ++ "\x22") gap
  | .size n => leaf .size (toString n) gap
  | .lastModified t => leaf .lastModified (Calendar.Timestamp.text t) gap
  | .storageClass text => leaf .storageClass text gap
  | .owner written =>
      container .owner written.lead (written.items.flatMap fun i => i.1.segments i.2) gap

end SummaryItem

/-- An object as it is written. -/
structure WrittenSummary where
  summary : Summary
  lead : Gap
  items : List (SummaryItem × Gap)
  key : items.filterMap (·.1.key?) = [summary.key]
  etag : items.filterMap (·.1.etag?) = summary.etag.toList
  size : items.filterMap (·.1.size?) = [summary.size]
  lastModified : items.filterMap (·.1.lastModified?) = summary.lastModified.toList
  storageClass : items.filterMap (·.1.storageClass?) = summary.storageClass.toList
  owner : items.filterMap (·.1.owner?) = summary.owner.toList

/-- The elements of an object in their usual order. -/
def SummaryItem.ofSummary (gap : Gap) (s : Summary) : List SummaryItem :=
  .key s.key :: (s.lastModified.toList.map .lastModified ++ s.etag.toList.map .etag ++
    .size s.size :: (s.storageClass.toList.map .storageClass ++
      s.owner.toList.map fun o => .owner (.ofOwner gap o)))

/-- An object with the same white space around all elements. -/
def WrittenSummary.ofSummary (gap : Gap) (s : Summary) : WrittenSummary where
  summary := s
  lead := gap
  items := (SummaryItem.ofSummary gap s).map fun item => (item, gap)
  key := by rcases s with ⟨_, _, _ | _, _, _ | _, _ | _, _ | _⟩ <;> rfl
  etag := by rcases s with ⟨_, _, _ | _, _, _ | _, _ | _, _ | _⟩ <;> rfl
  size := by rcases s with ⟨_, _, _ | _, _, _ | _, _ | _, _ | _⟩ <;> rfl
  lastModified := by rcases s with ⟨_, _, _ | _, _, _ | _, _ | _, _ | _⟩ <;> rfl
  storageClass := by rcases s with ⟨_, _, _ | _, _, _ | _, _ | _, _ | _⟩ <;> rfl
  owner := by rcases s with ⟨_, _, _ | _, _, _ | _, _ | _, _ | _⟩ <;> rfl

/-! ## Pages -/

/-- An element of a page. -/
inductive PageItem
  | name (text : String)
  | keyPrefix (text : String)
  | marker (text : String)
  | delimiter (text : String)
  | maxKeys (n : Nat)
  | truncated (b : Bool)
  | contents (written : WrittenSummary)
  /-- A group of keys, with the white space before and after its text. -/
  | commonPrefix (lead : Gap) (text : String) (trail : Gap)

namespace PageItem

def name? : PageItem → Option String
  | .name text => some text
  | _ => none

def keyPrefix? : PageItem → Option String
  | .keyPrefix text => some text
  | _ => none

def marker? : PageItem → Option String
  | .marker text => some text
  | _ => none

def delimiter? : PageItem → Option String
  | .delimiter text => some text
  | _ => none

def maxKeys? : PageItem → Option Nat
  | .maxKeys n => some n
  | _ => none

def truncated? : PageItem → Option Bool
  | .truncated b => some b
  | _ => none

def summary? : PageItem → Option Summary
  | .contents written => some written.summary
  | _ => none

def commonPrefix? : PageItem → Option String
  | .commonPrefix _ text _ => some text
  | _ => none

/-- An element of the request that is empty, as one is when nothing was asked for. -/
def isVacant : PageItem → Bool
  | .keyPrefix text | .marker text | .delimiter text => text == ""
  | _ => false

def segments (item : PageItem) (gap : Gap) : List Segment :=
  match item with
  | .name text => leaf .name text gap
  | .keyPrefix text => leaf .keyPrefix text gap
  | .marker text => leaf .marker text gap
  | .delimiter text => leaf .delimiter text gap
  | .maxKeys n => leaf .maxKeys (toString n) gap
  | .truncated b => leaf .isTruncated (toString b) gap
  | .contents written =>
      container .contents written.lead (written.items.flatMap fun i => i.1.segments i.2) gap
  | .commonPrefix lead text trail =>
      container .commonPrefixes lead (leaf .keyPrefix text trail) gap

end PageItem

/-- A listing as it is written, with what may stand before the root and in its tag. -/
structure Document where
  lead : Gap
  /-- Comments and instructions, such as the declaration of the version. -/
  prolog : List (Markup × Gap)
  passed : ∀ p ∈ prolog, p.1.IsSound ∧ p.1.token? = none
  attributes : List UInt8
  sound : Markup.isAttributes attributes = true
  inner : Gap
  items : List (PageItem × Gap)
  trail : Gap

namespace Document

/-- The parts of a document. -/
def passage (doc : Document) : Passage where
  text := doc.lead.bytes
  segments := doc.prolog.map (fun p => ⟨p.1, p.2.bytes⟩) ++
    element (Utf8.ofText ListingTag.root.element) doc.attributes doc.inner.bytes
      (doc.items.flatMap fun i => i.1.segments i.2) doc.trail.bytes

def bytes (doc : Document) : List UInt8 := doc.passage.bytes

/-- The document without the vacant elements. -/
def essential (doc : Document) : Document :=
  { doc with items := doc.items.filter fun i => !i.1.isVacant }

/-- A document that writes the fields of a page. -/
structure Writes (doc : Document) (page : Listing) : Prop where
  name : doc.items.filterMap (·.1.name?) = [page.bucket]
  keyPrefix : doc.items.filterMap (·.1.keyPrefix?) = page.keyPrefix.toList
  marker : doc.items.filterMap (·.1.marker?) = page.marker.toList
  delimiter : doc.items.filterMap (·.1.delimiter?) = page.delimiter.toList
  maxKeys : doc.items.filterMap (·.1.maxKeys?) = page.maxKeys.toList
  truncated : doc.items.filterMap (·.1.truncated?) = [page.truncated]
  summaries : doc.items.filterMap (·.1.summary?) = page.summaries
  commonPrefixes : doc.items.filterMap (·.1.commonPrefix?) = page.commonPrefixes
  /-- The name of the bucket comes before all objects. -/
  nameFirst : ∃ before after, doc.items = before ++ after ∧
    before.filterMap (·.1.summary?) = [] ∧ after.filterMap (·.1.name?) = []

end Document

/-- The elements of a page in their usual order. -/
def PageItem.ofPage (gap : Gap) (page : Listing) : List PageItem :=
  .name page.bucket :: (page.keyPrefix.toList.map .keyPrefix ++ page.marker.toList.map .marker ++
    page.maxKeys.toList.map .maxKeys ++ page.delimiter.toList.map .delimiter ++
    .truncated page.truncated :: (page.summaries.map (fun s => .contents (.ofSummary gap s)) ++
      page.commonPrefixes.map fun text => .commonPrefix gap text gap))

/-- A page with the same white space around all elements. -/
def Document.ofPage (gap : Gap) (page : Listing) : Document where
  lead := gap
  prolog := []
  passed := by simp
  attributes := []
  sound := rfl
  inner := gap
  items := (PageItem.ofPage gap page).map fun item => (item, gap)
  trail := gap

/-! ## What can be written -/

/-- An object whose fields are told from missing ones and from other values when they are read. -/
structure IsWritableSummary (s : Summary) : Prop where
  etag : ∀ text, s.etag = some text →
    text.toList.head? ≠ some '\x22' ∧ text.toList.getLast? ≠ some '\x22'
  size : s.size < word64
  lastModified : ∀ t, s.lastModified = some t → t.IsStampable
  storageClass : s.storageClass ≠ some ""

/-- A page whose fields are told from missing ones and from other values when they are read. -/
structure IsWritable (page : Listing) : Prop where
  keyPrefix : page.keyPrefix ≠ some ""
  marker : page.marker ≠ some ""
  delimiter : page.delimiter ≠ some ""
  maxKeys : ∀ n, page.maxKeys = some n → n < word32
  summaries : ∀ s ∈ page.summaries, IsWritableSummary s

/-- The greater one of two texts in the order of their bytes. -/
def byteMax (a b : String) : String := if Utf8.ofText a < Utf8.ofText b then b else a

/-- What the elements of a written page give: the objects are in the bucket of the page, and no
marker is named. -/
def gathered (page : Listing) : Listing :=
  { page with
    summaries := page.summaries.map fun s => { s with bucket := page.bucket }
    nextMarker := none }

/-- The page that is read where a page was written: the next page begins after the greatest one of
the last key and the last group of keys. -/
def settled (page : Listing) : Listing :=
  { page.gathered with
    nextMarker :=
      if page.truncated then
        Option.merge byteMax (page.summaries.getLast?.map (·.key)) page.commonPrefixes.getLast?
      else none }

end Listing

end ObjectStore
