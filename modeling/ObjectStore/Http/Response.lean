import ObjectStore.Http.Header
import ObjectStore.Text.Blank

/-!
# Responses

A response with its whole body, whether it is a success, and whether its connection may carry
another request.
-/

namespace ObjectStore.Http

open Text

/-- Protocol versions, oldest first. -/
inductive Version
  | v09
  | v10
  | v11
  | v2
  | v3
  deriving Repr, DecidableEq, Inhabited

/-- Versions whose connections stay open unless a response says otherwise. -/
def Version.isPersistent : Version → Bool
  | .v09 | .v10 => false
  | .v11 | .v2 | .v3 => true

/-- A complete response. -/
structure Response where
  status : Nat
  version : Version := .v11
  headers : List Header := []
  body : List UInt8 := []
  deriving Repr, DecidableEq, Inhabited

/-- Whether two words are equal in any case of their letters. -/
def sameWord (a b : List Char) : Bool := a.map Char.toLower == b.map Char.toLower

namespace Response

/-- The words of all readable `Connection` fields: comma between them, blanks around them
dropped. -/
def connectionWords (r : Response) : List (List Char) :=
  (r.headers.filter (·.name == "connection")).filterMap Header.readable?
    |>.flatMap fun value => (value.toList.splitOn ',').map (stripList isBlank)

/-- What the words read so far say; a word `close` ends the reading. -/
def keepAliveFrom (keep : Bool) : List (List Char) → Bool
  | [] => keep
  | word :: rest =>
      if sameWord word "close".toList then false
      else keepAliveFrom (keep || sameWord word "keep-alive".toList) rest

/-- Whether the connection may carry another request. -/
def keepAlive (r : Response) : Bool := keepAliveFrom r.version.isPersistent r.connectionWords

/-- The statuses of success. -/
def isSuccess (r : Response) : Bool := r.status == 200 || r.status == 204

/-- The readable text of the first field of a name. -/
def header? (r : Response) (name : String) : Option String :=
  (Header.find? r.headers name).bind Header.readable?

end Response

end ObjectStore.Http
