import ObjectStore.Listing.Skipped
import ObjectStore.Listing.Written
import ObjectStore.Service

/-!
# Entries of a listing

What a service holds for a listing is a list of entries in order. A page shows some of the entries
after the marker of the request, and the service answers with a document of such a page.
-/

namespace ObjectStore

open Text

/-- An entry of a listing: an object, or a group of keys under the text that they begin with. -/
inductive Entry
  | object (s : Summary)
  | group (name : String)
  deriving Repr, DecidableEq

namespace Entry

/-- The name that an entry has in the order of the listing. -/
def name : Entry → String
  | .object s => s.key
  | .group name => name

def object? : Entry → Option Summary
  | .object s => some s
  | .group _ => none

def group? : Entry → Option String
  | .object _ => none
  | .group name => some name

/-- The keys of the objects among entries. -/
def keys (entries : List Entry) : List String := (entries.filterMap object?).map (·.key)

/-- Entries in the strict order of the bytes of their names. -/
def Ascending (entries : List Entry) : Prop :=
  entries.Pairwise fun a b => Utf8.ofText a.name < Utf8.ofText b.name

instance (entries : List Entry) : Decidable (Ascending entries) :=
  inferInstanceAs (Decidable (entries.Pairwise _))

/-- The entries after a marker, or all of them. -/
def after (marker : Option String) (entries : List Entry) : List Entry :=
  match marker with
  | none => entries
  | some m => entries.filter fun e => Utf8.ofText m < Utf8.ofText e.name

end Entry

/-- The listing that a request belongs to, wherever its page begins. An empty prefix or delimiter
is none. -/
def ListingRequest.place (r : ListingRequest) : ListingRequest :=
  { r with
    keyPrefix := r.keyPrefix.filter (· ≠ "")
    marker := none
    delimiter := r.delimiter.filter (· ≠ "") }

namespace Listing

/-- A page with the first `n` of the entries that a request asks for. It is cut short just when
entries remain, and names what was asked for. -/
structure IsPageOf (page : Listing) (request : ListingRequest) (entries : List Entry) (n : Nat) :
    Prop where
  bucket : page.bucket = request.bucket
  keyPrefix : page.keyPrefix = request.place.keyPrefix
  delimiter : page.delimiter = request.place.delimiter
  maxKeys : page.maxKeys = request.maxKeys
  truncated : page.truncated = decide (n < (Entry.after request.marker entries).length)
  summaries : page.summaries = ((Entry.after request.marker entries).take n).filterMap Entry.object?
  commonPrefixes :
    page.commonPrefixes = ((Entry.after request.marker entries).take n).filterMap Entry.group?

/-- A page that shows entries to a client: the objects are in the bucket of the listing and without
the skipped fields. -/
structure Shows (options : ListingOptions) (bucket : String) (entries : List Entry)
    (page : Listing) : Prop where
  summaries : page.summaries =
    (entries.filterMap Entry.object?).map fun s => ({ s with bucket } : Summary).without options
  commonPrefixes : page.commonPrefixes = entries.filterMap Entry.group?

end Listing

/-! ## Services -/

/-- A response to a request: the document of a page of at least one entry and of no more than were
asked for. Elements that repeat the request may be vacant. -/
def ListingRequest.IsAnsweredBy (request : ListingRequest) (entries : List Entry)
    (response : Http.Response) : Prop :=
  ∃ (n : Nat) (page : Listing) (doc : Listing.Document),
    0 < n ∧ (∀ limit, request.maxKeys = some limit → n ≤ limit) ∧
      page.IsPageOf request entries n ∧ page.IsWritable ∧ doc.essential.Writes page ∧
      response.isSuccess = true ∧ response.body = doc.bytes

namespace Service

/-- A service that holds entries for a listing, in order, and answers each request for one of its
pages. A request for a page changes nothing. -/
structure Lists (service : Service) (place : ListingRequest) (held : List Request → List Entry) :
    Prop where
  ascending : ∀ sent, Entry.Ascending (held sent)
  answers : ∀ sent (request : ListingRequest), request.place = place →
    request.IsAnsweredBy (held sent) (service sent (.list request))
  kept : ∀ sent (request : ListingRequest), request.place = place →
    held (sent ++ [.list request]) = held sent

/-- A service that answers each bulk delete in the bucket of a listing. Of the entries that it holds
only those go away whose keys are named. -/
structure Removes (service : Service) (place : ListingRequest)
    (held : List Request → List Entry) : Prop where
  answers : ∀ sent keys bulk, Request.bulkDelete place.bucket keys = .ok bulk →
    ∃ d, Parser.deletion.complete (service sent bulk) = .ok (.deletion d)
  kept : ∀ sent keys bulk, Request.bulkDelete place.bucket keys = .ok bulk →
    List.Sublist ((held sent).filter fun e => e.name ∉ keys) (held (sent ++ [bulk]))
  removed : ∀ sent keys bulk, Request.bulkDelete place.bucket keys = .ok bulk →
    List.Sublist (held (sent ++ [bulk])) (held sent)

end Service

end ObjectStore
