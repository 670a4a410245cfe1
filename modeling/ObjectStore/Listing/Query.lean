import ObjectStore.Http.Response
import ObjectStore.Listing
import ObjectStore.Text.Decimal

/-!
# Queries of listings

The parameters of a listing request as a service reads them from its path.
-/

namespace ObjectStore.ListingRequest

open Text

/-- A parameter: its name up to the first equals sign, and the value after it. -/
def readParameter? (chars : List Char) : Option (String × String) :=
  match chars.dropWhile (· != '=') with
  | [] => none
  | _ :: value =>
      (Utf8.decode (Percent.decodeList value)).toOption.map fun text =>
        (String.ofList (chars.takeWhile (· != '=')), String.ofList text)

/-- The parameters of a path, cut at the ampersands after the question mark. -/
def readParameters? (path : String) : Option (List (String × String)) :=
  match path.toList with
  | '/' :: '?' :: query => (query.splitOn '&').mapM readParameter?
  | ['/'] => some []
  | _ => none

/-- The marker in a path. -/
def readMarker? (path : String) : Option String :=
  (readParameters? path).bind fun parameters =>
    (parameters.find? (·.1 == "marker")).map (·.2)

/-! ## Paths that are cut at each of their marks -/

/-- A field of a query: a name and a value around the only equals sign. -/
def field? (chars : List Char) : Option (String × String) :=
  match chars.splitOn '=' with
  | [name, value] =>
      (Utf8.decode (Percent.decodeList value)).toOption.map fun text =>
        (String.ofList name, String.ofList text)
  | _ => none

/-- The fields of a path: behind its only question mark, with ampersands between them. -/
def fields? (path : String) : Option (List (String × String)) :=
  match path.toList.splitOn '?' with
  | [['/']] => some []
  | [['/'], query] => (query.splitOn '&').mapM field?
  | _ => none

/-- The field of a value that is given. -/
def given (name : String) (value : Option String) : List (String × String) :=
  value.toList.map fun text => (name, text)

/-- The request for a page of a bucket that a path stands for. -/
def ofPath? (bucket path : String) : Option ListingRequest :=
  (fields? path).map fun fields =>
    { bucket
      keyPrefix := fields.lookup "prefix"
      marker := fields.lookup "marker"
      delimiter := fields.lookup "delimiter"
      maxKeys := (fields.lookup "max-keys").bind fun digits =>
        Decimal.unsigned? digits.toList }

end ObjectStore.ListingRequest
