import ObjectStore.Deletion
import ObjectStore.Http.Response
import ObjectStore.Listing.Document
import ObjectStore.OperationError
import ObjectStore.Text.Decimal
import ObjectStore.Word

/-!
# Answers

What an operation yields when its response is a success, read from the response by the parser
that belongs to the operation.
-/

namespace ObjectStore

open Text Http

/-- A downloaded object. -/
structure Download where
  content : List UInt8
  /-- The length that the response names, or that of the content. -/
  length : Nat
  etag : Option String
  headers : List Header
  deriving Repr, DecidableEq

/-- The value of an operation. -/
inductive Answer
  | download (d : Download)
  | stored (etag : Option String)
  | deleted
  | listing (page : Listing)
  | deletion (d : Deletion)
  deriving Repr, DecidableEq

/-- How a response is read. -/
inductive Parser
  | download
  | stored
  | deleted
  | listing (options : ListingOptions)
  | deletion
  deriving Repr, DecidableEq

/-- The entity tag of a response. -/
def etagOf (r : Response) : Option String := (r.header? "etag").map unquoteEtag

/-- The length that a response names, if it is a number. -/
def lengthOf (r : Response) : Option Nat :=
  (r.header? "content-length").bind (Decimal.below? word64)

/-- The value of a response, whatever its status. -/
def Parser.parse (parser : Parser) (r : Response) : Except OperationError Answer :=
  match parser with
  | .download => .ok (.download ⟨r.body, (lengthOf r).getD r.body.length, etagOf r, r.headers⟩)
  | .stored => .ok (.stored (etagOf r))
  | .deleted => .ok .deleted
  | .listing options => ((Listing.decode options r.body).map .listing).mapError .decode
  | .deletion => ((Deletion.decode r.body).map .deletion).mapError .decode

/-- The result of a response: a response without success is an error of the service. -/
def Parser.complete (parser : Parser) (r : Response) : Except OperationError Answer :=
  if r.isSuccess then parser.parse r else .error (.service (ServiceError.ofBody r.status r.body))

end ObjectStore
