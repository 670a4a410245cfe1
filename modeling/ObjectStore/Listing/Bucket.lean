import ObjectStore.Listing.Query
import ObjectStore.Listing.Written
import ObjectStore.Service

/-!
# Buckets

The objects of a bucket, and services that answer a listing of it with the first ones of the objects
that were asked for.
-/

namespace ObjectStore

open Text

/-- The objects of a bucket, in any order and each under a key of its own. -/
structure Bucket where
  name : String
  objects : List Summary
  distinct : (objects.map (·.key)).Nodup

namespace Bucket

/-- The objects whose keys begin with a text, in the order of the bytes of their keys. -/
def under (b : Bucket) (text : String) : List Summary :=
  (b.objects.filter fun s => (Utf8.ofText text).isPrefixOf (Utf8.ofText s.key)).mergeSort
    fun s t => decide (Utf8.ofText s.key ≤ Utf8.ofText t.key)

/-- A service answers each listing that asks for so many keys under a text with the first ones of
them. What it is asked for it reads from the path. -/
def IsListedBy (b : Bucket) (service : Service) : Prop :=
  ∀ sent (r : Request) text limit, r.operation = .list → r.bucket = b.name →
    ListingRequest.ofPath? b.name r.target =
      some { bucket := b.name, keyPrefix := some text, maxKeys := some limit } →
    ∃ (page : Listing) (doc : Listing.Document),
      page.summaries = (b.under text).take limit ∧ page.IsWritable ∧ doc.essential.Writes page ∧
        (service sent r).isSuccess = true ∧ (service sent r).body = doc.bytes

/-- A page with the first ones of the objects under a text. -/
def page (b : Bucket) (text : String) (limit : Nat) : Listing where
  bucket := b.name
  truncated := limit < (b.under text).length
  summaries := (b.under text).take limit

/-- A service that writes such a page with an element on each line. -/
def service (b : Bucket) : Service := fun _ r =>
  match ListingRequest.ofPath? b.name r.target with
  | some ⟨_, some text, _, _, some limit⟩ =>
      { status := 200, body := (Listing.Document.ofPage .newline (b.page text limit)).bytes }
  | _ => { status := 501 }

end Bucket

end ObjectStore
