import ObjectStore.Xml.Decoder

/-!
# Errors of the service

A response without success may carry an `Error` document. What cannot be read from it stays
empty; the status is always known.
-/

namespace ObjectStore

open Xml

/-- What the service says about a request that failed. -/
structure ServiceError where
  status : Nat
  code : String := ""
  message : String := ""
  resource : Option String := none
  requestId : Option String := none
  deriving Repr, DecidableEq, Inhabited

/-- The elements of an error document. -/
inductive ServiceErrorTag
  | root
  | code
  | message
  | resource
  | requestId
  | unknown
  deriving Repr, DecidableEq

namespace ServiceError

/-- The error of a response that says nothing but its status. -/
def ofStatus (status : Nat) : ServiceError := { status }

/-- Codes of conditions that may pass. -/
def transientCodes : List String :=
  ["RequestTimeout", "InternalError", "SlowDown", "ServiceUnavailable"]

/-- A condition of the service that another attempt may find gone. -/
def isTransient (e : ServiceError) : Bool :=
  transientCodes.contains e.code || e.status == 500 || e.status == 503

/-- The wording of an error: what is empty is left out. -/
def text (e : ServiceError) : String :=
  "status " ++ toString e.status
    ++ (if e.code.isEmpty then "" else " " ++ e.code)
    ++ (if e.message.isEmpty then "" else ": " ++ e.message)
    ++ (match e.requestId with
        | none => ""
        | some id => " (request id " ++ id ++ ")")

/-- The known elements by name. -/
def table : Table ServiceErrorTag :=
  Table.ofList .unknown
    [("Error", .root), ("Code", .code), ("Message", .message), ("Resource", .resource),
      ("RequestId", .requestId)]

/-- Text directly in a field of an error element is appended; other text is nothing. -/
def onText (tag : ServiceErrorTag) (text : String) (stack : Stack ServiceErrorTag)
    (e : ServiceError) : ServiceError :=
  if stack.parent = some .root then
    match tag with
    | .code => { e with code := e.code ++ text }
    | .message => { e with message := e.message ++ text }
    | .resource => { e with resource := some (e.resource.getD "" ++ text) }
    | .requestId => { e with requestId := some (e.requestId.getD "" ++ text) }
    | .root | .unknown => e
  else e

/-- The calls that build up an error. -/
def handling : Handling ServiceErrorTag ServiceError where
  onStart _ e := (e, none)
  onText tag text stack e := (onText tag text stack e, none)
  onEnd _ e := (e, none)

/-- The error of a document. -/
def decode (status : Nat) (body : List UInt8) : Except DecodeError ServiceError :=
  Xml.decode handling table body (ofStatus status)

/-- The error of a body: of a body that is empty or no document, the status alone. -/
def ofBody (status : Nat) (body : List UInt8) : ServiceError :=
  if body.isEmpty then ofStatus status
  else
    match decode status body with
    | .ok e => e
    | .error _ => ofStatus status

end ServiceError

end ObjectStore
