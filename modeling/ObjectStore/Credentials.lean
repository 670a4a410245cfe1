import ObjectStore.Environment
import ObjectStore.Text.Blank
import ObjectStore.Text.Quoted

/-!
# Credentials

An access key with its secret, checked when it is made, and where it comes from: given once, or
read from the environment for every request.
-/

namespace ObjectStore

open Text

/-- An access key, its secret, and the session token of temporary credentials. -/
structure Credentials where
  accessKey : String
  secretKey : String
  sessionToken : Option String := none
  deriving Repr, DecidableEq, Inhabited

/-- Why keys are no credentials. -/
inductive CredentialsError
  | emptyAccessKey
  | emptySecretKey
  | missingVariable (name : String)
  deriving Repr, DecidableEq

/-- The wording of an error. -/
def CredentialsError.message : CredentialsError → String
  | .emptyAccessKey => "Access key id must not be empty"
  | .emptySecretKey => "Secret key must not be empty"
  | .missingVariable name => "Environment variable " ++ name ++ " is not set"

namespace Credentials

/-- Credentials without a session token. The access key must not be blank. -/
def ofKeys (accessKey secretKey : String) : Except CredentialsError Credentials :=
  if (trim accessKey).isEmpty then .error .emptyAccessKey
  else if secretKey.isEmpty then .error .emptySecretKey
  else .ok { accessKey, secretKey }

/-- The same keys with a session token; an empty token is none. -/
def withToken (c : Credentials) (token : String) : Credentials :=
  { c with sessionToken := if token.isEmpty then none else some token }

/-- What a diagnostic shows: the access key, and of the secrets only whether there are any. -/
def redacted (c : Credentials) : String :=
  let token :=
    match c.sessionToken with
    | none => "None"
    | some _ => "Some(\"<redacted>\")"
  "Credentials \x7b access_key_id: " ++ Quoted.quote c.accessKey
    ++ ", secret_key: \"<redacted>\", session_token: " ++ token ++ " \x7d"

/-- Credentials from the variables of an environment. -/
def ofEnvironment (env : Environment) : Except CredentialsError Credentials :=
  match env.get? "AWS_ACCESS_KEY_ID" with
  | none => .error (.missingVariable "AWS_ACCESS_KEY_ID")
  | some accessKey =>
      match env.get? "AWS_SECRET_ACCESS_KEY" with
      | none => .error (.missingVariable "AWS_SECRET_ACCESS_KEY")
      | some secretKey =>
          (ofKeys accessKey secretKey).map fun c =>
            match env.get? "AWS_SESSION_TOKEN" with
            | none => c
            | some token => c.withToken token

end Credentials

/-- A source of credentials that is asked for every request. -/
inductive CredentialsSource
  /-- The same credentials every time. -/
  | fixed (credentials : Credentials)
  /-- The variables of the environment; while they are not valid, the last credentials that
  were. -/
  | environment (lastGood : Credentials)
  deriving Repr, DecidableEq

namespace CredentialsSource

/-- A source on an environment that is valid now. -/
def ofEnvironment (env : Environment) : Except CredentialsError CredentialsSource :=
  (Credentials.ofEnvironment env).map .environment

/-- Ask a source in an environment: the credentials, and the source afterwards. -/
def poll (env : Environment) : CredentialsSource → Credentials × CredentialsSource
  | .fixed c => (c, .fixed c)
  | .environment lastGood =>
      match Credentials.ofEnvironment env with
      | .ok fresh => (fresh, .environment fresh)
      | .error _ => (lastGood, .environment lastGood)

end CredentialsSource

end ObjectStore
