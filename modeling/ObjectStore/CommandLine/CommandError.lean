import ObjectStore.CommandLine.Location
import ObjectStore.Config.Loading

/-!
# How a command fails

The causes of failure of a command line, and their wording: a text for what could not be done, and
after it the texts of the causes behind.
-/

namespace ObjectStore.CommandLine

/-- Why a command is not carried out to its end. -/
inductive CommandError
  | notLoaded (cause : LoadError)
  | noProfile
  | badCredentials (cause : CredentialsError)
  | noClient (cause : OperationError)
  | location (cause : LocationError)
  | keyRequiredFor (command : String)
  | keyRequiredIn (path : String)
  | operation (cause : OperationError)
  | unreadable (file : String) (cause : FileError)
  | unwritable (file : String) (cause : FileError)
  | noObject (key : String)
  | notDeleted (count : Nat)
  deriving Repr, DecidableEq

namespace CommandError

/-- The failure of an operation behind an error. -/
def operation? : CommandError → Option OperationError
  | .operation e | .noClient e => some e
  | _ => none

/-- The texts of an error and its causes, up to the failure of an operation. -/
def context : CommandError → List String
  | .notLoaded cause => cause.chain
  | .noProfile => ["No profile configured"]
  | .badCredentials cause => ["Invalid credentials in profile", cause.message]
  | .noClient _ => ["Failed to create S3 client"]
  | .location cause => [cause.message]
  | .keyRequiredFor command => ["Object key is required for " ++ command]
  | .keyRequiredIn path => ["Object key is required: " ++ path]
  | .operation _ => []
  | .unreadable file cause => ["Failed to read " ++ file, cause.message]
  | .unwritable file cause => ["Failed to write " ++ file, cause.message]
  | .noObject key => ["Object not found: " ++ key]
  | .notDeleted count => [toString count ++ " object(s) could not be deleted"]

/-- All texts of an error and its causes. -/
def chain (e : CommandError) : List String :=
  e.context ++
    match e.operation? with
    | none => []
    | some e => e.message :: e.causes

/-- The texts that stand below the first one, numbered when there are several. -/
def causeLines : List String → List String
  | [] => []
  | [text] => ["", "Caused by:", "    " ++ text]
  | texts => ["", "Caused by:"]
      ++ texts.zipIdx.map fun (text, i) => "    " ++ toString i ++ ": " ++ text

/-- What is shown of an error. -/
def report (e : CommandError) : String :=
  let texts := e.chain
  "\n".intercalate (("Error: " ++ texts.headD "") :: causeLines texts.tail) ++ "\n"

end CommandError

end ObjectStore.CommandLine
