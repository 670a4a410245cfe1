import ObjectStore.Listing.Document
import ObjectStore.Xml.Tree

/-!
# What a document says of objects

A listing document speaks of objects one after the other: an object begins, its owner begins, and
texts are given for their fields. Each of this belongs in its place in the tree of the document, but
it is heard wherever it stands.
-/

namespace ObjectStore

open Text Xml

/-- Whether an element holds a field of an object as its text. -/
def ListingTag.isField : ListingTag → Bool
  | .key | .etag | .size | .lastModified | .storageClass => true
  | _ => false

/-- Whether an element holds a field of an owner as its text. -/
def ListingTag.isOwnerField : ListingTag → Bool
  | .id | .displayName => true
  | _ => false

/-- What is said of objects. -/
inductive Mention
  | object
  | owner
  | text (tag : ListingTag) (chars : String)
  deriving Repr, DecidableEq

namespace Mention

/-- What is said by the start of an element. -/
def ofStart : ListingTag → Option Mention
  | .contents => some object
  | .owner => some owner
  | _ => none

/-- What is said by a text in an element. The fields of an owner are heard directly in an owner
only. -/
def ofText (tag : ListingTag) (chars : String) (parent : Option ListingTag) : Option Mention :=
  if tag.isField ∨ tag.isOwnerField ∧ parent = some .owner then some (text tag chars) else none

/-- What a visit says of objects. -/
def ofVisit : Visit ListingTag → Option Mention
  | .entered tag => ofStart tag
  | .text tag chars stack => ofText tag chars stack.parent
  | .left _ => none

/-- What is said from the start of each object to the start of the next one. -/
def stretches (mentions : List Mention) : List (List Mention) :=
  (mentions.splitOn object).tail

end Mention

/-- Change an owner, or a new one when there is none. -/
def Summary.withOwner (f : Owner → Owner) (s : Summary) : Summary :=
  { s with owner := some (f (s.owner.getD {})) }

/-- An object after something more was said of it: texts are appended or, where they are read as
values, count from the last one on. -/
def Summary.told (s : Summary) : Mention → Summary
  | .object => s
  | .owner => { s with owner := some {} }
  | .text .key chars => { s with key := s.key ++ chars }
  | .text .etag chars => { s with etag := some (unquoteEtag chars) }
  | .text .size chars => { s with size := (Decimal.below? word64 (trim chars)).getD s.size }
  | .text .lastModified chars =>
      { s with lastModified := (Calendar.Timestamp.parse? chars).or s.lastModified }
  | .text .storageClass chars => { s with storageClass := Listing.appended s.storageClass chars }
  | .text .id chars => s.withOwner fun o => { o with id := o.id ++ chars }
  | .text .displayName chars =>
      s.withOwner fun o => { o with displayName := o.displayName ++ chars }
  | .text _ _ => s

/-- The object of which no more is said than this. -/
def Summary.ofMentions (mentions : List Mention) : Summary := mentions.foldl Summary.told {}

/-- An object apart from its bucket, which the document names elsewhere. -/
def Summary.bare (s : Summary) : Summary := { s with bucket := "" }

namespace Xml.Nodes

/-- What nodes say of objects, in the order of the document. -/
def mentions (stack : Stack ListingTag) (nodes : Nodes ListingTag) : List Mention :=
  (nodes.visits stack).filterMap Mention.ofVisit

/-- What the nodes in an owner say of it: the texts directly in its fields. -/
def ownerMentions : Nodes ListingTag → List Mention
  | nil => []
  | text _ rest => rest.ownerMentions
  | element tag inner rest =>
      (if tag.isOwnerField then inner.texts.map (.text tag) else []) ++ rest.ownerMentions

/-- What the nodes in an object say of it: its owner, and the texts directly in its fields. -/
def ownMentions : Nodes ListingTag → List Mention
  | nil => []
  | text _ rest => rest.ownMentions
  | element tag inner rest =>
      (if tag = .owner then .owner :: inner.ownerMentions
        else if tag.isField then inner.texts.map (.text tag) else []) ++ rest.ownMentions

/-- What is said out of place, around which there is an element or none: fields of an object and
owners that are not directly in an object, and objects in an object. -/
def strays (around : Option ListingTag) : Nodes ListingTag → List Mention
  | nil => []
  | text _ rest => rest.strays around
  | element tag inner rest =>
      (if tag = .contents then (inner.elements .contents).map fun _ => .object
        else if around = some .contents then []
        else if tag = .owner then [.owner]
        else if tag.isField then inner.texts.map (.text tag)
        else []) ++
      inner.strays (some tag) ++ rest.strays around

end Xml.Nodes

namespace Listing

/-- How a page hears of objects from the elements of a document. -/
structure Hears (page : Listing) (nodes : Nodes ListingTag) : Prop where
  /-- There is an object for each of its elements. -/
  count : page.summaries.length = (nodes.elements .contents).length
  /-- An object is all that is said up to the start of the next one, wherever it stands. -/
  heard : page.summaries.map Summary.bare =
    (Mention.stretches (nodes.mentions Stack.empty)).map Summary.ofMentions
  /-- Where nothing is said out of place, an object is what its own element says of it. -/
  inPlace : nodes.strays none = [] →
    page.summaries.map Summary.bare =
      (nodes.elements .contents).map fun inner => Summary.ofMentions inner.ownMentions
  /-- A key that is given out of place changes the key of some object. -/
  spoiled : ∀ chars, .text .key chars ∈ nodes.strays none → chars ≠ "" →
    page.summaries.map (·.key) ≠
      (nodes.elements .contents).map fun inner => (Summary.ofMentions inner.ownMentions).key

end Listing

end ObjectStore
