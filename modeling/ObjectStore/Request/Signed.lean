import ObjectStore.Request

/-!
# Requests that are sent as they are signed

A request is signed by its method, its bucket and the resource that its target names. What is
signed is cut out of the target as it is described, and what is sent is read from it as a target,
so that the two can only agree if reading changes nothing.
-/

namespace ObjectStore

open Text

namespace Request

/-- A request for an object, for a page of a listing, or to delete several objects at once. The
type and the checksum of an upload are added by the caller. -/
inductive Made : Request → Prop
  | get (bucket key : String) : Made (get bucket key)
  | put (bucket key : String) (body : List UInt8) (contentType contentMd5 : Option String) :
      Made { put bucket key body with contentType, contentMd5 }
  | delete (bucket key : String) : Made (delete bucket key)
  | list (r : ListingRequest) : Made (list r)
  | bulkDelete {bucket : String} {keys : List String} {r : Request}
      (h : bulkDelete bucket keys = .ok r) : Made r

/-- The part of a target that is signed. The query of a listing is left out. -/
def signedPart (op : Operation) (target : List Char) : List Char :=
  match op with
  | .list => target.takeWhile (· != '?')
  | .get | .put | .delete | .bulkDelete => target

/-- A request that goes out with the method, the target and the resource that are signed for it. -/
structure SentAsSigned (r : Request) : Prop where
  /-- The target can be written in a request line. -/
  accepted : ∃ target, Http.Target.parse r.target = .ok target
  /-- Only the value of a header field can keep the request from being written. -/
  written : ∀ host signed, (∃ wire, r.toWire host signed = .ok wire) ↔
    ∀ h ∈ r.headers host signed, (Utf8.ofText h.2).all Http.Header.isValueByte = true
  /-- No part of the target is cut off or changed. -/
  target : ∀ host signed wire, r.toWire host signed = .ok wire → wire.target = r.target
  method : ∀ host signed wire, r.toWire host signed = .ok wire →
    r.signingInput.operation.verb = wire.method.name
  resource : ∀ host signed wire, r.toWire host signed = .ok wire →
    r.signingInput.operation.resource r.signingInput.target.toList =
      signedPart r.operation wire.target.toList
  /-- The signed text begins with the method and ends with the bucket and the resource. -/
  text : ∀ host signed wire, r.toWire host signed = .ok wire → ∀ token date,
    r.signingInput.stringToSign token date =
      wire.method.name.toList ++ '\n' :: (r.contentMd5.getD "").toList ++ '\n' ::
        (r.contentType.getD "").toList ++ '\n' :: date.toList ++ '\n' ::
        SigningInput.tokenLine token ++ '/' :: r.bucket.toList ++
        signedPart r.operation wire.target.toList

end Request

end ObjectStore
