import ObjectStore.Duration
import ObjectStore.ServiceError

/-!
# How an operation fails

The causes of failure by the layer in which they arise, their wording, and whether another
attempt may help.
-/

namespace ObjectStore

open Xml

/-- A setting that no client can work with. -/
inductive ConfigError
  | invalidEndpoint (endpoint : String)
  | zero (field : String)
  deriving Repr, DecidableEq

/-- Why an attempt is not let in. -/
inductive AdmissionError
  | limitExceeded (limit : Nat)
  deriving Repr, DecidableEq

/-- Why no channel is leased. -/
inductive PoolError
  | acquireTimeout (after : Duration)
  | tooManyPending (limit : Nat)
  | connect (address cause : String)
  | connectTimeout (address : String) (after : Duration)
  | handshake
  | closed
  deriving Repr, DecidableEq

/-- Why an operation has no value. -/
inductive OperationError
  | admission (e : AdmissionError)
  | pool (e : PoolError)
  | transport
  | channelInactive
  | timeout (after : Duration)
  | bodyTooLarge (limit : Nat)
  | service (e : ServiceError)
  | decode (e : DecodeError)
  | cancelled
  | closed
  | invalidRequest (reason : String)
  | config (e : ConfigError)
  | runtime (cause : String)
  deriving Repr, DecidableEq

/-- The wording of a setting error. -/
def ConfigError.message : ConfigError → String
  | .invalidEndpoint endpoint => "Invalid endpoint '" ++ endpoint ++ "': expected host[:port]"
  | .zero field => field ++ " must be greater than zero"

/-- The wording of an admission error. -/
def AdmissionError.message : AdmissionError → String
  | .limitExceeded limit => "Too many operations in flight (limit " ++ toString limit ++ ")"

/-- The wording of a pool error. -/
def PoolError.message : PoolError → String
  | .acquireTimeout after => "Timed out after " ++ after.text ++ " waiting for a free channel"
  | .tooManyPending limit => "Too many pending acquires (limit " ++ toString limit ++ ")"
  | .connect address cause => "Failed to connect to " ++ address ++ ": " ++ cause
  | .connectTimeout address after =>
      "Connecting to " ++ address ++ " timed out after " ++ after.text
  | .handshake => "HTTP handshake failed"
  | .closed => "Channel pool is closed"

/-- How another attempt is judged. -/
inductive RetryClass
  /-- Refused here, before anything was sent. -/
  | admission
  /-- A condition of the network or the service that may pass. -/
  | transient
  /-- Another attempt cannot help. -/
  | fatal
  deriving Repr, DecidableEq

namespace OperationError

/-- The wording of an error. -/
def message : OperationError → String
  | .admission e => "Admission rejected: " ++ e.message
  | .pool e => "Channel pool error: " ++ e.message
  | .transport => "Transport error"
  | .channelInactive => "Channel closed before a response was received"
  | .timeout after => "Request timed out after " ++ after.text
  | .bodyTooLarge limit => "Response body exceeds " ++ toString limit ++ " bytes"
  | .service e => "S3 error: " ++ e.text
  | .decode e => "Failed to decode response: " ++ e.message
  | .cancelled => "Request was cancelled"
  | .closed => "Client is closed"
  | .invalidRequest reason => "Invalid request: " ++ reason
  | .config e => "Invalid configuration: " ++ e.message
  | .runtime cause => "Failed to start worker runtime: " ++ cause

/-- The wording of the causes behind an error, the nearest first. -/
def causes : OperationError → List String
  | .admission e => [e.message]
  | .pool (.connect address cause) => [(PoolError.connect address cause).message, cause]
  | .pool e => [e.message]
  | .decode (.encoding fault) => [(DecodeError.encoding fault).message, fault.message]
  | .decode e => [e.message]
  | .config e => [e.message]
  | .runtime cause => [cause]
  | _ => []

/-- The judgement on another attempt. -/
def retryClass : OperationError → RetryClass
  | .admission _ => .admission
  | .pool (.tooManyPending _) => .admission
  | .pool .closed => .fatal
  | .pool _ => .transient
  | .transport | .channelInactive | .timeout _ => .transient
  | .service e => if e.isTransient then .transient else .fatal
  | .bodyTooLarge _ | .decode _ | .cancelled | .closed | .invalidRequest _ | .config _
  | .runtime _ => .fatal

/-- Whether another attempt may help. -/
def isRetryable (e : OperationError) : Bool := e.retryClass != .fatal

end OperationError

end ObjectStore
