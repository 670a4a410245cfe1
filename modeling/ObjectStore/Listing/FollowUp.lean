import ObjectStore.Listing.Document
import ObjectStore.Xml.Visit

/-!
# Follow-up requests

What a document says of the listing that its page belongs to, the requests that are made from such
documents alone, and what it means for them to go on.
-/

namespace ObjectStore

open Text Xml

namespace Listing

/-- A text of a field of the page itself, with the element that it is read from. The prefix in a
group of keys is not the one of the page. -/
def ownText? : Visit ListingTag → Option (ListingTag × String)
  | .text .keyPrefix chars stack =>
      if stack.parent = some .commonPrefixes then none else some (.keyPrefix, chars)
  | .text tag chars _ =>
      if tag ∈ [.name, .marker, .nextMarker, .delimiter, .maxKeys, .isTruncated] then
        some (tag, chars)
      else none
  | _ => none

/-- The texts of one field of the page, in the order of the document. -/
def ownTexts (tag : ListingTag) (found : List (Visit ListingTag)) : List String :=
  (found.filterMap ownText?).filterMap fun p => if p.1 = tag then some p.2 else none

/-- The texts of a field as one, if there are any. -/
def joined? (texts : List String) : Option String := texts.foldl appended none

/-- The listing that a document names: texts are joined, and the last number counts. -/
def named (found : List (Visit ListingTag)) : ListingRequest where
  bucket := String.join (ownTexts .name found)
  keyPrefix := joined? (ownTexts .keyPrefix found)
  delimiter := joined? (ownTexts .delimiter found)
  maxKeys := (ownTexts .maxKeys found).getLast?.bind fun text => Decimal.below? word32 (trim text)

/-! ## Pages in order -/

/-- The names of all entries of a page. -/
def entryNames (page : Listing) : List String :=
  page.summaries.map (·.key) ++ page.commonPrefixes

/-- Names in the order of their bytes, with repetitions or without. -/
def Ascending (names : List String) : Prop :=
  names.Pairwise fun a b => Utf8.ofText a ≤ Utf8.ofText b

/-- A marker that does not lead back: no entry of the page comes after it, nor does the marker that
the page began after. -/
structure Onward (page : Listing) (marker : String) : Prop where
  entries : ∀ name ∈ page.entryNames, Utf8.ofText name ≤ Utf8.ofText marker
  echoed : ∀ before, page.marker = some before →
    (∀ name ∈ page.entryNames, Utf8.ofText before < Utf8.ofText name) →
    Utf8.ofText before ≤ Utf8.ofText marker

/-- A page whose follow-up request does not lead back. -/
def GoesOn (page : Listing) : Prop :=
  ∃ request marker, page.nextRequest = some request ∧ request.marker = some marker ∧
    page.Onward marker

end Listing

/-! ## Requests after one another -/

/-- A request without the place where its page begins. -/
def ListingRequest.scope (r : ListingRequest) : ListingRequest := { r with marker := none }

/-- The requests for further pages when the requests are answered by these bodies in turn: one after
each page that is cut short, and none after a body that is refused. -/
def followUps (options : ListingOptions) : List (List UInt8) → List ListingRequest
  | [] => []
  | body :: bodies =>
      match (Listing.decode options body).toOption.bind Listing.nextRequest with
      | none => []
      | some request => request :: followUps options bodies

end ObjectStore
