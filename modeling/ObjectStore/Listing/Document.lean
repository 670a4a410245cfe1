import ObjectStore.Calendar.Timestamp
import ObjectStore.Listing
import ObjectStore.Word
import ObjectStore.Xml.Decoder

/-!
# Listing documents

A listing is read from a `ListBucketResult` document. An element fills a field of the page, or
of the last object or group of keys that was begun.
-/

namespace ObjectStore

open Text Xml

/-- Fields that are not read. -/
structure ListingOptions where
  skipOwner : Bool := false
  skipEtag : Bool := false
  skipLastModified : Bool := false
  skipStorageClass : Bool := false
  deriving Repr, DecidableEq, Inhabited

/-- The elements of a listing document. -/
inductive ListingTag
  | root
  | name
  | keyPrefix
  | marker
  | nextMarker
  | delimiter
  | maxKeys
  | isTruncated
  | contents
  | key
  | etag
  | size
  | lastModified
  | storageClass
  | owner
  | id
  | displayName
  | commonPrefixes
  | unknown
  deriving Repr, DecidableEq

/-- An entity tag without blanks and then without quotes around it. -/
def unquoteEtag (text : String) : String := strip (· == '\x22') (trim text)

namespace Listing

/-- The known elements by name, those of skipped fields left out. -/
def table (options : ListingOptions) : Table ListingTag :=
  Table.ofList .unknown <|
    [("ListBucketResult", .root), ("Name", .name), ("Prefix", .keyPrefix), ("Marker", .marker),
      ("NextMarker", .nextMarker), ("Delimiter", .delimiter), ("MaxKeys", .maxKeys),
      ("IsTruncated", .isTruncated), ("Contents", .contents), ("Key", .key), ("Size", .size),
      ("CommonPrefixes", .commonPrefixes)]
    ++ (if options.skipEtag then [] else [("ETag", .etag)])
    ++ (if options.skipLastModified then [] else [("LastModified", .lastModified)])
    ++ (if options.skipStorageClass then [] else [("StorageClass", .storageClass)])
    ++ (if options.skipOwner then []
        else [("Owner", .owner), ("ID", .id), ("DisplayName", .displayName)])

/-- Text after the text that a field may already hold. -/
def appended (field : Option String) (text : String) : Option String :=
  some (field.getD "" ++ text)

/-- Change the last object, which an element of this name belongs to. -/
def onSummary (tag : String) (f : Summary → Summary) (page : Listing) :
    Except DecodeError Listing :=
  match page.summaries.getLast? with
  | none => .error (.malformed ("<" ++ tag ++ "> outside <Contents>"))
  | some last => .ok { page with summaries := page.summaries.dropLast ++ [f last] }

/-- Change the owner of the last object. -/
def onOwner (f : Owner → Owner) : Listing → Except DecodeError Listing :=
  onSummary "Owner" fun s => { s with owner := some (f (s.owner.getD {})) }

/-- A start tag begins an object, a group of keys or an owner. -/
def onStart (tag : ListingTag) (page : Listing) : Except DecodeError Listing :=
  match tag with
  | .contents => .ok { page with summaries := page.summaries ++ [{ bucket := page.bucket }] }
  | .commonPrefixes => .ok { page with commonPrefixes := page.commonPrefixes ++ [""] }
  | .owner => onSummary "Owner" (fun s => { s with owner := some {} }) page
  | _ => .ok page

/-- Text after that of the last group of keys. -/
def onCommonPrefix (text : String) (page : Listing) : Listing :=
  match page.commonPrefixes.getLast? with
  | none => page
  | some last => { page with commonPrefixes := page.commonPrefixes.dropLast ++ [last ++ text] }

/-- Text directly in an element. Texts are appended to what is there; numbers, dates, flags and
entity tags take its place. -/
def onText (tag : ListingTag) (text : String) (stack : Stack ListingTag) (page : Listing) :
    Except DecodeError Listing :=
  match tag with
  | .name => .ok { page with bucket := page.bucket ++ text }
  | .keyPrefix =>
      if stack.parent = some .commonPrefixes then .ok (onCommonPrefix text page)
      else .ok { page with keyPrefix := appended page.keyPrefix text }
  | .marker => .ok { page with marker := appended page.marker text }
  | .nextMarker => .ok { page with nextMarker := appended page.nextMarker text }
  | .delimiter => .ok { page with delimiter := appended page.delimiter text }
  | .maxKeys =>
      (readNumber word32 "MaxKeys" text).map fun n => { page with maxKeys := some n }
  | .isTruncated => (readBool "IsTruncated" text).map fun b => { page with truncated := b }
  | .key => onSummary "Key" (fun s => { s with key := s.key ++ text }) page
  | .etag => onSummary "ETag" (fun s => { s with etag := some (unquoteEtag text) }) page
  | .size =>
      (readNumber word64 "Size" text).bind fun n =>
        onSummary "Size" (fun s => { s with size := n }) page
  | .lastModified =>
      match Calendar.Timestamp.parse? text with
      | none => .error (.invalidValue "LastModified" text)
      | some t => onSummary "LastModified" (fun s => { s with lastModified := some t }) page
  | .storageClass =>
      onSummary "StorageClass"
        (fun s => { s with storageClass := appended s.storageClass text }) page
  | .id =>
      if stack.parent = some .owner then onOwner (fun o => { o with id := o.id ++ text }) page
      else .ok page
  | .displayName =>
      if stack.parent = some .owner then
        onOwner (fun o => { o with displayName := o.displayName ++ text }) page
      else .ok page
  | .root | .contents | .owner | .commonPrefixes | .unknown => .ok page

/-- The greatest entry of a page in byte order: the marker it names, the last key or the last
group of keys. -/
def greatestEntry (page : Listing) : Option String :=
  [page.nextMarker, page.summaries.getLast?.map (·.key), page.commonPrefixes.getLast?].foldl
    (fun best entry =>
      match best, entry with
      | none, entry => entry
      | best, none => best
      | some a, some b => some (if a < b then b else a))
    none

/-- The end of the document settles where the next page begins: entries are listed in order, so
to go on after the greatest one neither skips nor repeats any. -/
def onEnd (tag : ListingTag) (page : Listing) : Listing :=
  if tag = .root then { page with nextMarker := greatestEntry page } else page

/-- A change that may be refused as the effect of a call. -/
def effect (page : Listing) : Except DecodeError Listing → Listing × Option DecodeError
  | .ok next => (next, none)
  | .error e => (page, some e)

/-- The calls that build up a page. -/
def handling : Handling ListingTag Listing where
  onStart tag page := effect page (onStart tag page)
  onText tag text stack page := effect page (onText tag text stack page)
  onEnd tag page := (onEnd tag page, none)

/-- The page of a document. Only a page that is cut short has a next one. -/
def decode (options : ListingOptions) (body : List UInt8) : Except DecodeError Listing :=
  (Xml.decode handling (table options) body {}).map fun page =>
    if page.truncated then page else { page with nextMarker := none }

end Listing

end ObjectStore
