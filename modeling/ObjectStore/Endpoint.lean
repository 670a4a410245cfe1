import ObjectStore.Http.Response
import ObjectStore.OperationError
import ObjectStore.Request

/-!
# Endpoints

What a client may find at the other end: a service that answers requests by a script. Each
request takes the first answer of the script that fits it, and when none is left the answer is
that there is nothing. The program has no sockets, so that no service answers it. The script stands
for whatever a service may do: whole courses of a client with a service can be computed, and what
is proved of simulations holds for every script.
-/

namespace ObjectStore

open Text Http

/-- How the end of a body is shown. -/
inductive Framing
  | length
  | chunked
  | untilClosed
  deriving Repr, DecidableEq

/-- What the service does with a request. -/
inductive Deed
  | answer
  /-- It closes the connection without a byte. -/
  | hangUp
  /-- It sends what is no response. -/
  | garble
  /-- It never answers. -/
  | ignore
  /-- It answers when it is told to. -/
  | hold
  deriving Repr, DecidableEq

/-- One answer of a script. -/
structure Scripted where
  /-- What must occur in the target and the body of the request. -/
  wanted : Option (List UInt8) := none
  status : Nat := 200
  version : Version := .v11
  headers : List Header := []
  body : List UInt8 := []
  framing : Framing := .length
  deed : Deed := .answer
  /-- How many bytes are announced and not sent. -/
  lacking : Nat := 0
  deriving Repr

/-- Whether a list occurs in another one. -/
def occursIn (part : List UInt8) : List UInt8 → Bool
  | [] => part.isEmpty
  | b :: rest => part.isPrefixOf (b :: rest) || occursIn part rest

namespace Scripted

/-- The answer to a request for which the script has none. -/
def exhausted : Scripted :=
  { status := 404, body := Utf8.ofText "<Error><Code>ScriptEnd</Code></Error>" }

/-- Whether an answer fits a request. -/
def fits (a : Scripted) (request : WireRequest) : Bool :=
  match a.wanted with
  | none => true
  | some part => occursIn part (Utf8.ofText (request.target ++ "\n") ++ request.body)

/-- Whether a response of a status has no body. -/
def isBare (a : Scripted) : Bool := a.status == 204 || a.status == 304

/-- The header field that shows the end of the body. -/
def framingHeader (a : Scripted) : List Header :=
  if a.isBare then []
  else
    match a.framing with
    | .length => [⟨"content-length", Utf8.ofText (toString (a.body.length + a.lacking))⟩]
    | .chunked => [⟨"transfer-encoding", Utf8.ofText "chunked"⟩]
    | .untilClosed => []

/-- The response as a client reads it. -/
def response (a : Scripted) : Response :=
  { status := a.status, version := a.version, headers := a.headers ++ a.framingHeader,
    body := if a.isBare then [] else a.body }

/-- Whether the service closes the connection after the answer. -/
def closes (a : Scripted) : Bool :=
  a.framing == .untilClosed || a.version == .v10 || 0 < a.lacking
    || a.response.connectionWords.any (sameWord · "close".toList)

end Scripted

/-- The answer to a request, and the script afterwards. -/
def takeAnswer (request : WireRequest) : List Scripted → Scripted × List Scripted
  | [] => (.exhausted, [])
  | a :: rest =>
      if a.fits request then (a, rest)
      else
        let (found, left) := takeAnswer request rest
        (found, a :: left)

end ObjectStore
