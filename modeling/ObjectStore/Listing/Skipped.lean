import ObjectStore.Listing.Document

/-!
# Skipped fields

Which elements are passed over when fields are skipped, and what is left of a page without these
fields.
-/

namespace ObjectStore

/-- Whether an element belongs to a skipped field. -/
def ListingOptions.skips (options : ListingOptions) : ListingTag → Bool
  | .owner | .id | .displayName => options.skipOwner
  | .etag => options.skipEtag
  | .lastModified => options.skipLastModified
  | .storageClass => options.skipStorageClass
  | _ => false

/-- The handler of an element: that of unknown elements when its field is skipped. -/
def ListingOptions.handler (options : ListingOptions) (tag : ListingTag) : ListingTag :=
  if options.skips tag then .unknown else tag

/-- An object without the skipped fields. -/
def Summary.without (options : ListingOptions) (s : Summary) : Summary :=
  { s with
    etag := if options.skipEtag then none else s.etag
    lastModified := if options.skipLastModified then none else s.lastModified
    storageClass := if options.skipStorageClass then none else s.storageClass
    owner := if options.skipOwner then none else s.owner }

/-- A page whose objects are without the skipped fields. -/
def Listing.without (options : ListingOptions) (page : Listing) : Listing :=
  { page with summaries := page.summaries.map (Summary.without options) }

end ObjectStore
