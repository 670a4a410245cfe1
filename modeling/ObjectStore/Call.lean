import ObjectStore.Completion
import ObjectStore.Request

/-!
# Calls

The operations of a client: a request with the parser of its response, or a result that is known
without a request.
-/

namespace ObjectStore

/-- What a client is asked to do. -/
inductive Call
  | send (request : Request) (parser : Parser)
  | ready (result : Result)

namespace Call

def get (bucket key : String) : Call := .send (.get bucket key) .download

/-- Upload an object, with the type and the checksum that are given. -/
def put (bucket key : String) (body : List UInt8) (contentType contentMd5 : Option String) :
    Call :=
  .send { Request.put bucket key body with contentType, contentMd5 } .stored

def delete (bucket key : String) : Call := .send (.delete bucket key) .deleted

def list (options : ListingOptions) (request : ListingRequest) : Call :=
  .send (.list request) (.listing options)

/-- The page after a page. After the last one there is an empty page, for which nothing is
sent. -/
def listNext (options : ListingOptions) (page : Listing) : Call :=
  match page.nextRequest with
  | some request => list options request
  | none => .ready (.ok (.listing page.afterLast))

/-- Delete up to a thousand objects with one request. -/
def deleteObjects (bucket : String) (keys : List String) : Call :=
  match Request.bulkDelete bucket keys with
  | .ok request => .send request .deletion
  | .error e => .ready (.error e)

end Call

end ObjectStore
