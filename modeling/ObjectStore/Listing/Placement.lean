import Mathlib.Data.List.Infix
import ObjectStore.Listing.FollowUp
import ObjectStore.Xml.Tree

/-!
# Where texts belong in a listing document

A prefix belongs to the group of keys that it is directly in, or else to the page. The name of the
bucket belongs to the page and to each of its objects, but an object takes over what has been read
of the name when the object begins.
-/

namespace ObjectStore.Listing

open Text Xml

/-- The name of the elements of groups of keys. -/
def groupElement : List UInt8 := Utf8.ofText "CommonPrefixes"

/-- The name of the elements of prefixes, be they of groups or of the page. -/
def prefixElement : List UInt8 := Utf8.ofText "Prefix"

/-- The texts directly in prefixes that are not directly in a group of keys. -/
def ownPrefixTexts (nodes : Nodes (List UInt8)) : List String :=
  nodes.textsWhere
    (fun parent around => around = some prefixElement ∧ parent ≠ some groupElement) none none

/-- How a page tells its own prefix from its groups of keys. -/
structure SortsPrefixes (page : Listing) (nodes : Nodes (List UInt8)) : Prop where
  /-- Where no group is in another one, there is one for each of its elements, put together of the
  prefixes directly in this element. -/
  groups : (∀ inner ∈ nodes.elements groupElement, inner.elements groupElement = []) →
    page.commonPrefixes = (nodes.elements groupElement).map fun inner =>
      String.join (inner.childTexts prefixElement)
  /-- The prefix of the page is put together of all other prefixes, if these have texts. -/
  own : page.keyPrefix =
    if (ownPrefixTexts nodes).isEmpty then none else some (String.join (ownPrefixTexts nodes))

/-- What is read of a document up to the start of each of its objects. -/
def readAtObjects (found : List (Visit ListingTag)) : List (List (Visit ListingTag)) :=
  found.inits.filter fun read => read.getLast? = some (.entered .contents)

/-- How a page and its objects get the name of the bucket. -/
structure TellsBuckets (page : Listing) (found : List (Visit ListingTag)) : Prop where
  /-- The page has the whole name. -/
  own : page.bucket = String.join (ownTexts .name found)
  /-- An object has what is read of the name up to the start of the object. -/
  objects : page.summaries.map (·.bucket) =
    (readAtObjects found).map fun read => String.join (ownTexts .name read)
  /-- All objects are in the bucket of the page just when nothing of the name follows the start of
  any of them. -/
  agree : (∀ s ∈ page.summaries, s.bucket = page.bucket) ↔
    ∀ read rest, found = read ++ rest → read.getLast? = some (.entered .contents) →
      String.join (ownTexts .name rest) = ""

end ObjectStore.Listing
