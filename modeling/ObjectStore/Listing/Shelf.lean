import ObjectStore.Listing.Entries
import ObjectStore.Listing.Query
import ObjectStore.Request.Named

/-!
# Shelves

A service that holds entries for one listing. Objects that are deleted in its bucket go away, and
what is left is shown in pages of one size.
-/

namespace ObjectStore

open Text

/-- Entries for a listing, and how many of them a page shows. -/
structure Shelf where
  place : ListingRequest
  entries : List Entry
  size : Nat
  place_eq : place.place = place
  size_pos : 0 < size
  size_le : ∀ limit, place.maxKeys = some limit → size ≤ limit ∧ limit < word32
  ascending : Entry.Ascending entries
  writable : ∀ s, .object s ∈ entries → Listing.IsWritableSummary s

namespace Shelf

/-- The keys that a request takes away. -/
def taken (shelf : Shelf) (r : Request) : List String :=
  if r.bucket = shelf.place.bucket then r.deletes.getD [] else []

/-- The entries that are left after requests. -/
def left (shelf : Shelf) (sent : List Request) : List Entry :=
  shelf.entries.filter fun e => e.name ∉ sent.flatMap shelf.taken

/-- A page with the first ones of entries. -/
def page (shelf : Shelf) (entries : List Entry) : Listing where
  bucket := shelf.place.bucket
  keyPrefix := shelf.place.keyPrefix
  delimiter := shelf.place.delimiter
  maxKeys := shelf.place.maxKeys
  truncated := shelf.size < entries.length
  summaries := (entries.take shelf.size).filterMap Entry.object?
  commonPrefixes := (entries.take shelf.size).filterMap Entry.group?

/-- Listings are answered with a page of what is left after the marker, and all else without
complaint. -/
def service (shelf : Shelf) : Service := fun sent r =>
  match r.operation with
  | .list =>
      let entries := Entry.after (ListingRequest.readMarker? r.target) (shelf.left sent)
      { status := 200, body := (Listing.Document.ofPage .newline (shelf.page entries)).bytes }
  | _ => { status := 200, body := Utf8.ofText "<DeleteResult></DeleteResult>" }

end Shelf

end ObjectStore
