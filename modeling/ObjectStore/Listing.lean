import ObjectStore.Calendar
import ObjectStore.Text.Percent

/-!
# Listings

One page of the objects in a bucket, and the request for a page. A page that is cut short names
the marker after which the next page begins.
-/

namespace ObjectStore

open Text

/-- Whom an object belongs to. -/
structure Owner where
  id : String := ""
  displayName : String := ""
  deriving Repr, DecidableEq, Inhabited

/-- One object of a listing. -/
structure Summary where
  bucket : String := ""
  key : String := ""
  /-- The entity tag without the quotes around it. -/
  etag : Option String := none
  size : Nat := 0
  lastModified : Option Calendar.Instant := none
  storageClass : Option String := none
  owner : Option Owner := none
  deriving Repr, DecidableEq, Inhabited

/-- One page of a listing. -/
structure Listing where
  bucket : String := ""
  keyPrefix : Option String := none
  marker : Option String := none
  delimiter : Option String := none
  maxKeys : Option Nat := none
  /-- Whether entries follow this page. -/
  truncated : Bool := false
  /-- Where the next page begins. -/
  nextMarker : Option String := none
  summaries : List Summary := []
  /-- Groups of keys that share everything up to a delimiter. -/
  commonPrefixes : List String := []
  deriving Repr, DecidableEq, Inhabited

/-- What a listing is asked for. -/
structure ListingRequest where
  bucket : String := ""
  keyPrefix : Option String := none
  marker : Option String := none
  delimiter : Option String := none
  maxKeys : Option Nat := none
  deriving Repr, DecidableEq, Inhabited

namespace ListingRequest

/-- The parameters that are present, by name and in their fixed order. -/
def parameters (r : ListingRequest) : List (String × String) :=
  [("prefix", r.keyPrefix), ("marker", r.marker), ("delimiter", r.delimiter),
    ("max-keys", r.maxKeys.map toString)].filterMap fun p => p.2.map fun value => (p.1, value)

/-- One parameter in a query. -/
def parameterText (p : String × String) : String := p.1 ++ "=" ++ Percent.encode p.2

/-- A path with parameters: a question mark before the first one, ampersands between them. -/
def queryText : List (String × String) → String
  | [] => "/"
  | p :: r => r.foldl (fun path q => path ++ "&" ++ parameterText q) ("/?" ++ parameterText p)

/-- The path that asks for the page. -/
def path (r : ListingRequest) : String := queryText r.parameters

end ListingRequest

namespace Listing

/-- The request for the page after a page that was cut short. -/
def nextRequest (page : Listing) : Option ListingRequest :=
  if page.truncated then
    some ⟨page.bucket, page.keyPrefix, page.nextMarker, page.delimiter, page.maxKeys⟩
  else none

/-- The page after the last one: nothing, under the same parameters. -/
def afterLast (page : Listing) : Listing :=
  { bucket := page.bucket, keyPrefix := page.keyPrefix, delimiter := page.delimiter,
    maxKeys := page.maxKeys }

end Listing

end ObjectStore
