import ObjectStore.Calendar
import ObjectStore.Credentials
import ObjectStore.Digest.Sha1
import ObjectStore.Operation
import ObjectStore.Text.Base64
import ObjectStore.Text.Utf8

/-!
# Signatures

A request is signed by the keyed digest of a few lines of text: verb, checksum, type, date, the
session token when there is one, and bucket with resource. A signer builds them up in buffers
that it keeps from one request to the next, and leaves the buffers empty.
-/

namespace ObjectStore

open Text

/-- What of a request is signed. -/
structure SigningInput where
  operation : Operation
  target : String
  contentMd5 : String := ""
  contentType : String := ""
  bucket : String
  deriving Repr, DecidableEq

/-- The headers that a signature adds to a request. -/
structure SignedHeaders where
  authorization : String
  date : String
  securityToken : Option String := none
  deriving Repr, DecidableEq, Inhabited

namespace SigningInput

/-- The line of a session token. -/
def tokenLine : Option String → List Char
  | none => []
  | some token => "x-amz-security-token:".toList ++ token.toList ++ ['\n']

/-- The text that is signed. -/
def stringToSign (input : SigningInput) (token : Option String) (date : String) : List Char :=
  input.operation.verb.toList ++ '\n' :: input.contentMd5.toList ++ '\n' ::
    input.contentType.toList ++ '\n' :: date.toList ++ '\n' :: tokenLine token ++ '/' ::
    input.bucket.toList ++ input.operation.resource input.target.toList

/-- The digest of a text under a secret key. -/
def digest (secretKey : String) (text : List Char) : List UInt8 :=
  Digest.Sha1.keyed (Utf8.ofText secretKey) (Utf8.encode text)

/-- The value of the header that proves who sends a request. -/
def authorization (accessKey : String) (digest : List UInt8) : String :=
  "AWS " ++ accessKey ++ ":" ++ Base64.encode digest

/-- The headers of a request signed at an instant. -/
def headers (input : SigningInput) (credentials : Credentials) (now : Calendar.Instant) :
    SignedHeaders :=
  let date := now.headerText
  let text := input.stringToSign credentials.sessionToken date
  ⟨authorization credentials.accessKey (digest credentials.secretKey text), date,
    credentials.sessionToken⟩

end SigningInput

/-- The buffers of a signer: what is signed, the date, and the digest. -/
structure Signer where
  text : List Char := []
  date : List Char := []
  digest : List UInt8 := List.replicate 20 0
  deriving Repr, DecidableEq, Inhabited

namespace Signer

/-- A signer before its first request. -/
def fresh : Signer := {}

/-- Write the date of an instant after what the buffer holds. -/
def writeDate (s : Signer) (now : Calendar.Instant) : Signer :=
  { s with date := s.date ++ now.headerText.toList }

/-- Write what is signed after what the buffer holds, with the date of the date buffer. -/
def writeText (s : Signer) (input : SigningInput) (token : Option String) : Signer :=
  { s with text := s.text ++ input.stringToSign token (String.ofList s.date) }

/-- Put the digest of the text buffer into the digest buffer. -/
def writeDigest (s : Signer) (secretKey : String) : Signer :=
  { s with digest := SigningInput.digest secretKey s.text }

/-- Empty all buffers. -/
def wipe (s : Signer) : Signer :=
  { s with text := [], date := [], digest := s.digest.map fun _ => 0 }

/-- The headers of a request signed at an instant, and the signer afterwards. -/
def sign (s : Signer) (input : SigningInput) (credentials : Credentials)
    (now : Calendar.Instant) : SignedHeaders × Signer :=
  let s := s.writeDate now
  let s := s.writeText input credentials.sessionToken
  let s := s.writeDigest credentials.secretKey
  (⟨SigningInput.authorization credentials.accessKey s.digest, String.ofList s.date,
    credentials.sessionToken⟩, s.wipe)

/-- The headers of requests that one signer signs in turn. -/
def signAll (s : Signer) : List (SigningInput × Credentials × Calendar.Instant) →
    List SignedHeaders × Signer
  | [] => ([], s)
  | (input, credentials, now) :: rest =>
      let (headers, s) := s.sign input credentials now
      let (later, s) := s.signAll rest
      (headers :: later, s)

end Signer

end ObjectStore
