import ObjectStore.Http.Response
import ObjectStore.Listing.Document
import ObjectStore.OperationError
import ObjectStore.Text.Decimal
import ObjectStore.Word

/-!
# Settings of a client

Where the service is, and the limits and waiting times of a client. Waiting times are whole
milliseconds in words of 64 bits.
-/

namespace ObjectStore

open Text

/-- The settings that a client is built from. -/
structure ClientConfig where
  endpoint : String := "s3.amazonaws.com"
  connectTimeoutMs : Nat := 1000
  requestTimeoutMs : Nat := 10000
  acquireTimeoutMs : Nat := 5000
  maxConnections : Nat := 100
  /-- After how long an unused channel is closed; never when 0. -/
  maxIdleTimeMs : Nat := 60000
  maxPendingAcquires : Nat := 10000
  maxContentLength : Nat := 104857600
  workerThreads : Nat := 2
  maxRetries : Nat := 3
  retryBackoffMs : Nat := 1000
  /-- How many attempts may run at once; any number when 0. -/
  maxInFlight : Nat := 0
  options : ListingOptions := {}
  deriving Repr, DecidableEq, Inhabited

namespace ClientConfig

/-- The milliseconds of a duration in a word of 64 bits; what does not fit is cut off. -/
def millisWord (d : Duration) : Nat := d.millis % word64

def withConnectTimeout (c : ClientConfig) (d : Duration) : ClientConfig :=
  { c with connectTimeoutMs := millisWord d }

def withRequestTimeout (c : ClientConfig) (d : Duration) : ClientConfig :=
  { c with requestTimeoutMs := millisWord d }

def withAcquireTimeout (c : ClientConfig) (d : Duration) : ClientConfig :=
  { c with acquireTimeoutMs := millisWord d }

def withMaxIdleTime (c : ClientConfig) (d : Duration) : ClientConfig :=
  { c with maxIdleTimeMs := millisWord d }

def withRetryBackoff (c : ClientConfig) (d : Duration) : ClientConfig :=
  { c with retryBackoffMs := millisWord d }

def connectTimeout (c : ClientConfig) : Duration := .ofMillis c.connectTimeoutMs

def requestTimeout (c : ClientConfig) : Duration := .ofMillis c.requestTimeoutMs

def acquireTimeout (c : ClientConfig) : Duration := .ofMillis c.acquireTimeoutMs

def retryBackoff (c : ClientConfig) : Duration := .ofMillis c.retryBackoffMs

/-- After how long an unused channel is closed. -/
def maxIdleTime (c : ClientConfig) : Option Duration :=
  if c.maxIdleTimeMs > 0 then some (.ofMillis c.maxIdleTimeMs) else none

/-- Host and port of the endpoint: 80 without a port. -/
def address (c : ClientConfig) : Except ConfigError (String × Nat) :=
  let endpoint := stripList isBlank c.endpoint.toList
  let host := endpoint.takeWhile (· != ':')
  let port :=
    match endpoint.drop host.length with
    | [] => some 80
    | _ :: port => Decimal.below? 65536 (String.ofList port)
  match port with
  | none => .error (.invalidEndpoint c.endpoint)
  | some port =>
      if host.isEmpty || host.contains '/' then .error (.invalidEndpoint c.endpoint)
      else .ok (String.ofList host, port)

/-- The first setting that no client can work with. -/
def validate (c : ClientConfig) : Except ConfigError Unit := do
  let _ ← c.address
  if c.requestTimeoutMs = 0 then .error (.zero "request_timeout_ms")
  else if c.maxConnections = 0 then .error (.zero "max_connections")
  else if c.workerThreads = 0 then .error (.zero "worker_threads")
  else if c.maxContentLength = 0 then .error (.zero "max_content_length")
  else .ok ()

end ClientConfig

end ObjectStore
