import ObjectStore.Digest.Md5
import ObjectStore.Http.Header
import ObjectStore.Http.Target
import ObjectStore.Listing
import ObjectStore.OperationError
import ObjectStore.Signature
import ObjectStore.Xml.Reference

/-!
# Requests

A request as the caller describes it, and the form in which it is sent. The description does
not change while a request is tried again.
-/

namespace ObjectStore

open Text

/-- What is asked of the service. -/
structure Request where
  operation : Operation
  bucket : String
  /-- The path, with a query after it when there is one. -/
  target : String
  body : List UInt8 := []
  contentType : Option String := none
  contentMd5 : Option String := none
  deriving Repr, DecidableEq, Inhabited

/-- A request on the wire. -/
structure WireRequest where
  method : Method
  target : String
  headers : List Http.Header
  body : List UInt8
  deriving Repr, DecidableEq

/-- Bytes of a key that stand in a path as they are: unreserved ones and slashes. -/
def keepsInPath (b : UInt8) : Bool := Percent.isUnreserved b || b == 0x2F

/-- The path of an object: a slash, and the key without the slashes at its head. -/
def objectPath (key : String) : String :=
  let bytes := Utf8.encode (key.toList.dropWhile (· == '/'))
  String.ofList ('/' :: Percent.encodeList keepsInPath bytes)

/-- The greatest number of keys of one bulk delete. -/
def maxDeleteKeys : Nat := 1000

namespace Request

def get (bucket key : String) : Request :=
  { operation := .get, bucket, target := objectPath key }

def put (bucket key : String) (body : List UInt8) : Request :=
  { operation := .put, bucket, target := objectPath key, body }

def delete (bucket key : String) : Request :=
  { operation := .delete, bucket, target := objectPath key }

def list (r : ListingRequest) : Request :=
  { operation := .list, bucket := r.bucket, target := r.path }

/-- One key of a bulk delete. -/
def keyElement (key : String) : List Char :=
  "<Object><Key>".toList ++ Xml.Reference.escape key.toList ++ "</Key></Object>".toList

/-- The document of a bulk delete. -/
def deleteDocument (keys : List String) : List Char :=
  "<?xml version=\"1.0\" encoding=\"UTF-8\"?><Delete>".toList ++ keys.flatMap keyElement
    ++ "</Delete>".toList

/-- Delete one to a thousand keys at once. The service wants a checksum of the document. -/
def bulkDelete (bucket : String) (keys : List String) : Except OperationError Request :=
  if keys.isEmpty then .error (.invalidRequest "bulk delete needs at least one key")
  else if keys.length > maxDeleteKeys then
    .error (.invalidRequest ("cannot delete more than " ++ toString maxDeleteKeys
      ++ " objects at once, got " ++ toString keys.length))
  else
    let body := Utf8.encode (deleteDocument keys)
    .ok { operation := .bulkDelete, bucket, target := "/?delete", body,
          contentType := some "application/xml",
          contentMd5 := some (Base64.encode (Digest.Md5.digest body)) }

/-- What of a request is signed. -/
def signingInput (r : Request) : SigningInput :=
  { operation := r.operation, target := r.target, contentMd5 := r.contentMd5.getD "",
    contentType := r.contentType.getD "", bucket := r.bucket }

/-- The host that stands for the bucket; the usual port is not named. -/
def virtualHost (r : Request) (host : String) (port : Nat) : String :=
  if port = 80 then r.bucket ++ "." ++ host
  else r.bucket ++ "." ++ host ++ ":" ++ toString port

/-- The header fields, in the order in which they are checked. -/
def headers (r : Request) (host : String) (signed : SignedHeaders) : List (String × String) :=
  [("host", host), ("connection", "keep-alive"), ("date", signed.date),
    ("authorization", signed.authorization)]
  ++ [("x-amz-security-token", signed.securityToken), ("content-type", r.contentType),
      ("content-md5", r.contentMd5)].filterMap fun h => h.2.map fun value => (h.1, value)

/-- The request on the wire: none when its target or a header value cannot be written. -/
def toWire (r : Request) (host : String) (signed : SignedHeaders) :
    Except OperationError WireRequest :=
  match Http.Target.parse r.target with
  | .error fault => .error (.invalidRequest fault.message)
  | .ok target =>
      let headers := (r.headers host signed).map fun h => Http.Header.mk h.1 (Utf8.ofText h.2)
      if headers.all fun h => h.value.all Http.Header.isValueByte then
        .ok ⟨r.operation.method, target.text, headers, r.body⟩
      else .error (.invalidRequest "failed to parse header value")

end Request

end ObjectStore
