import ObjectStore.ClientConfig
import ObjectStore.Credentials
import ObjectStore.Word
import ObjectStore.Yaml.Node

/-!
# Configurations

Named profiles with keys and an endpoint, and settings that all of them share, read from a YAML
document or from the environment.
-/

namespace ObjectStore

open Text Yaml

/-- Keys, and where they are good. -/
structure Profile where
  endpoint : String := "s3.amazonaws.com"
  accessKey : String
  secretKey : String
  sessionToken : Option String := none
  bucket : Option String := none
  deriving Repr, DecidableEq, Inhabited

/-- The credentials of a profile. -/
def Profile.credentials (p : Profile) : Except CredentialsError Credentials :=
  (Credentials.ofKeys p.accessKey p.secretKey).map fun c =>
    match p.sessionToken with
    | none => c
    | some token => c.withToken token

/-- All that is configured. Profile names differ. -/
structure Config where
  profiles : List (String × Profile) := []
  client : ClientConfig := {}
  defaultProfile : Option String := none
  deriving Repr, Inhabited

namespace Config

/-- The profile of a name. -/
def profile? (c : Config) (name : String) : Option Profile := c.profiles.lookup name

/-- The profile of a name, else the default one, else the first one. -/
def chosen (c : Config) (name : Option String) : Option Profile :=
  match name, c.defaultProfile with
  | some name, _ => c.profile? name
  | none, some name => c.profile? name
  | none, none => c.profiles.head?.map (·.2)

/-- The shared settings with the endpoint of a profile. -/
def clientConfig (c : Config) (p : Profile) : ClientConfig :=
  { c.client with endpoint := p.endpoint }

/-! ## From YAML

Unknown keys are passed over. A known key must not come twice, and its value must have the form
of the field. Of two profiles with one name the last counts. -/

/-- The text of a scalar in any form. -/
def readText : Node → Option String
  | .scalar _ text => some text
  | _ => none

/-- Spellings of nothing. -/
def nullWords : List String := ["", "~", "null", "Null", "NULL"]

/-- A text that may be left out. -/
def readOptionalText : Node → Option (Option String)
  | .scalar isPlain text => some (if isPlain && nullWords.contains text then none else some text)
  | _ => none

/-- A flag, in one of three cases of its letters. -/
def readFlag : Node → Option Bool
  | .scalar true text =>
      if ["true", "True", "TRUE"].contains text then some true
      else if ["false", "False", "FALSE"].contains text then some false
      else none
  | _ => none

/-- Digits of a base as a number, at least one digit. -/
def readDigits (base : Nat) (cs : List Char) : Option Nat :=
  if cs.isEmpty then none
  else cs.foldl (fun n c => n.bind fun n => (hexDigit? c).bind fun d =>
    if d < base then some (base * n + d) else none) (some 0)

/-- An unsigned number below a limit, without quotes: decimal without leading zeros, or after a
letter that tells another base. -/
def readCount (limit : Nat) : Node → Option Nat
  | .scalar true text =>
      let cs := text.toList
      let cs := if cs.head? = some '+' then cs.drop 1 else cs
      let n :=
        match cs with
        | '0' :: 'x' :: r => readDigits 16 r
        | '0' :: 'o' :: r => readDigits 8 r
        | '0' :: 'b' :: r => readDigits 2 r
        | '0' :: _ :: _ => none
        | cs => readDigits 10 cs
      n.filter (· < limit)
  | _ => none

/-- The pairs of a mapping by the text of their keys. Nothing is a mapping without pairs. -/
def readPairs : Node → Option (List (String × Node))
  | .mapping pairs => pairs.mapM fun p => (readText p.1).map fun key => (key, p.2)
  | .scalar true "" => some []
  | _ => none

/-- The value of a key that comes at most once; what stands for it when it does not come. -/
def field {α : Type} (pairs : List (String × Node)) (name : String) (missing : Option α)
    (read : Node → Option α) : Option α :=
  match pairs.filter (·.1 == name) with
  | [] => missing
  | [p] => read p.2
  | _ => none

/-- A profile from the value under its name. -/
def readProfile (node : Node) : Option Profile := do
  let pairs ← readPairs node
  return {
    endpoint := ← field pairs "endpoint" (some "s3.amazonaws.com") readText
    accessKey := ← field pairs "access_key" none readText
    secretKey := ← field pairs "secret_key" none readText
    sessionToken := ← field pairs "session_token" (some none) readOptionalText
    bucket := ← field pairs "bucket" (some none) readOptionalText }

/-- Listing options from their mapping. -/
def readOptions (node : Node) : Option ListingOptions := do
  let pairs ← readPairs node
  return {
    skipOwner := ← field pairs "skip_owner" (some false) readFlag
    skipEtag := ← field pairs "skip_etag" (some false) readFlag
    skipLastModified := ← field pairs "skip_last_modified" (some false) readFlag
    skipStorageClass := ← field pairs "skip_storage_class" (some false) readFlag }

/-- Client settings from their mapping. -/
def readClient (node : Node) : Option ClientConfig := do
  let pairs ← readPairs node
  let word (name : String) (missing : Nat) := field pairs name (some missing) (readCount word64)
  let usual : ClientConfig := {}
  return {
    endpoint := ← field pairs "endpoint" (some usual.endpoint) readText
    connectTimeoutMs := ← word "connect_timeout_ms" usual.connectTimeoutMs
    requestTimeoutMs := ← word "request_timeout_ms" usual.requestTimeoutMs
    acquireTimeoutMs := ← word "acquire_timeout_ms" usual.acquireTimeoutMs
    maxConnections := ← word "max_connections" usual.maxConnections
    maxIdleTimeMs := ← word "max_idle_time_ms" usual.maxIdleTimeMs
    maxPendingAcquires := ← word "max_pending_acquires" usual.maxPendingAcquires
    maxContentLength := ← word "max_content_length" usual.maxContentLength
    workerThreads := ← word "worker_threads" usual.workerThreads
    maxRetries := ← field pairs "max_retries" (some usual.maxRetries) (readCount word32)
    retryBackoffMs := ← word "retry_backoff_ms" usual.retryBackoffMs
    maxInFlight := ← word "max_in_flight" usual.maxInFlight
    options := ← field pairs "parse" (some {}) readOptions }

/-- Profiles by name; of those with one name the last counts. -/
def lastOfName : List (String × Profile) → List (String × Profile)
  | [] => []
  | p :: rest => if rest.any (·.1 == p.1) then lastOfName rest else p :: lastOfName rest

/-- The profiles from the mapping of their names. -/
def readProfiles (node : Node) : Option (List (String × Profile)) := do
  let pairs ← readPairs node
  let profiles ← pairs.mapM fun p => (readProfile p.2).map fun profile => (p.1, profile)
  return lastOfName profiles

/-- A configuration from a document. -/
def ofNode (node : Node) : Option Config := do
  let pairs ← readPairs node
  return {
    profiles := ← field pairs "profiles" (some []) readProfiles
    client := ← field pairs "client" (some {}) readClient
    defaultProfile := ← field pairs "default_profile" (some none) readOptionalText }

/-- A configuration from the text of a document. -/
def ofYaml (text : String) : Option Config := (Yaml.parse text).bind ofNode

/-! ## From the environment -/

/-- The names of the variables that make a configuration. -/
def variableNames : List String :=
  ["AWS_ACCESS_KEY_ID", "AWS_SECRET_ACCESS_KEY", "AWS_SESSION_TOKEN", "S3_ENDPOINT", "S3_BUCKET",
    "S3_MAX_CONNECTIONS", "S3_MAX_RETRIES"]

/-- The variables of keys, endpoint and limits as the one profile `default`. A limit that is no
number changes nothing. On failure, the variable that is missing. -/
def ofEnvironment (env : Environment) : Except String Config :=
  match env.get? "AWS_ACCESS_KEY_ID" with
  | none => .error "AWS_ACCESS_KEY_ID"
  | some accessKey =>
      match env.get? "AWS_SECRET_ACCESS_KEY" with
      | none => .error "AWS_SECRET_ACCESS_KEY"
      | some secretKey =>
          let usual : ClientConfig := {}
          let number (name : String) (limit missing : Nat) :=
            ((env.get? name).bind (Decimal.below? limit)).getD missing
          let profile : Profile := {
            endpoint := (env.get? "S3_ENDPOINT").getD usual.endpoint, accessKey, secretKey,
            sessionToken := env.get? "AWS_SESSION_TOKEN", bucket := env.get? "S3_BUCKET" }
          .ok {
            profiles := [("default", profile)]
            client := { usual with
              maxConnections := number "S3_MAX_CONNECTIONS" word64 usual.maxConnections
              maxRetries := number "S3_MAX_RETRIES" word32 usual.maxRetries }
            defaultProfile := some "default" }

end Config

end ObjectStore
