import ObjectStore.Config
import ObjectStore.Directory
import ObjectStore.Dotenv

/-!
# Loading of configurations

A configuration comes from a file that is named, or from the environment, to which a file `.env`
of the working directory adds the variables that are not set.
-/

namespace ObjectStore

open Text

/-- Why there is no configuration. -/
inductive LoadError
  | unreadable (path : String) (cause : FileError)
  | notYaml
  | badClient (cause : ConfigError)
  | unknownProfile (name : String)
  | missingVariable (name : String)
  deriving Repr, DecidableEq

/-- The wording of an error, and then that of the causes behind it. -/
def LoadError.chain : LoadError → List String
  | .unreadable path cause =>
      ["Failed to read config file: " ++ Quoted.quote path, cause.message]
  | .notYaml => ["Failed to parse YAML configuration"]
  | .badClient cause => ["Invalid client configuration", cause.message]
  | .unknownProfile name => ["Profile '" ++ name ++ "' not found in config file"]
  | .missingVariable name =>
      [name ++ " environment variable is not set", "environment variable not found"]

/-- How the files of a working directory are read. -/
abbrev Reader := String → Except FileError (List UInt8)

namespace Config

/-- The configuration of a file. -/
def ofFile (read : Reader) (path : String) : Except LoadError Config := do
  let content ← (read path).mapError (.unreadable path)
  let text ← (Utf8.toText content).mapError fun _ => .unreadable path .notText
  match ofYaml text with
  | none => throw .notYaml
  | some config =>
      config.client.validate.mapError .badClient
      return config

/-- The configuration of an environment, with what a file `.env` adds to it. -/
def ofSettings (read : Reader) (env : Environment) : Except LoadError Config :=
  let env :=
    match read ".env" with
    | .ok content => Dotenv.load env content
    | .error _ => env
  (ofEnvironment env).mapError .missingVariable

/-- The configuration of a file when one is named, else that of the environment. A profile that
is asked for must be in the file. -/
def load (read : Reader) (env : Environment) (path profile : Option String) :
    Except LoadError Config :=
  match path with
  | none => ofSettings read env
  | some path => do
      let config ← ofFile read path
      match profile with
      | none => return config
      | some name =>
          if (config.profile? name).isNone then throw (.unknownProfile name)
          return { config with defaultProfile := some name }

end Config

end ObjectStore
