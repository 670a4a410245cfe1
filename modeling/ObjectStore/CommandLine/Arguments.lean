import ObjectStore.Text.Decimal
import ObjectStore.Word

/-!
# Arguments

The arguments of a command line: a command with its paths and options, and three options that may
stand before or after the command. Options are long (`--output file`, `--output=file`) or short
(`-o file`, `-ofile`, several letters in one), and after `--` everything is a path.
-/

namespace ObjectStore.CommandLine

open Text

/-- What the program is told to do. -/
inductive Command
  | ls (path : String) (recursive : Bool) (maxKeys : Option Nat)
  | get (path : String) (output : Option String)
  | put (file path : String) (contentType : Option String)
  | rm (paths : List String) (recursive : Bool)
  | stat (path : String)
  deriving Repr, DecidableEq

/-- A whole command line. -/
structure Invocation where
  command : Command
  config : Option String
  profile : Option String
  logLevel : String
  deriving Repr, DecidableEq

/-- Why arguments are no command line, or what is shown instead of running one. -/
inductive UsageError
  | help
  | version
  | nothingGiven
  | missingCommand
  | unknownCommand
  | unknownArgument
  | missingArgument
  | noValue
  | badValue
  | unwantedValue
  | repeated
  deriving Repr, DecidableEq

/-- The names of the commands. -/
inductive Verb
  | ls
  | get
  | put
  | rm
  | stat
  deriving Repr, DecidableEq

def Verb.name : Verb → String
  | .ls => "ls"
  | .get => "get"
  | .put => "put"
  | .rm => "rm"
  | .stat => "stat"

def Verb.ofName? (name : String) : Option Verb :=
  [Verb.ls, .get, .put, .rm, .stat].find? (·.name == name)

/-- What an argument gives a value to. -/
inductive Slot
  | config
  | profile
  | logLevel
  | recursive
  | maxKeys
  | output
  | contentType
  | file
  | path
  | paths
  deriving Repr, DecidableEq

/-- What the name of an option stands for. -/
inductive OptionKind
  | valued (slot : Slot)
  | flag (slot : Slot)
  | help
  | version
  deriving Repr, DecidableEq

/-- The options before the command, or those of a command. -/
def longOption? (level : Option Verb) (name : String) : Option OptionKind :=
  match level, name with
  | _, "config" => some (.valued .config)
  | _, "profile" => some (.valued .profile)
  | _, "log-level" => some (.valued .logLevel)
  | _, "help" => some .help
  | none, "version" => some .version
  | some .ls, "recursive" | some .rm, "recursive" => some (.flag .recursive)
  | some .ls, "max-keys" => some (.valued .maxKeys)
  | some .get, "output" => some (.valued .output)
  | some .put, "content-type" => some (.valued .contentType)
  | _, _ => none

/-- The options of one letter. -/
def shortOption? (level : Option Verb) (letter : Char) : Option OptionKind :=
  match level, letter with
  | _, 'h' => some .help
  | none, 'V' => some .version
  | some .ls, 'r' | some .rm, 'r' => some (.flag .recursive)
  | some .get, 'o' => some (.valued .output)
  | _, _ => none

/-- The arguments without a name, in their order. -/
def places : Option Verb → List Slot
  | none => []
  | some .ls | some .get | some .stat => [.path]
  | some .put => [.file, .path]
  | some .rm => [.paths]

/-- A signed number below a limit, and not below zero. -/
def countBelow? (limit : Nat) (s : String) : Option Nat :=
  let number? (cs : List Char) : Option Nat := (Decimal.digits? cs).filter fun _ => !cs.isEmpty
  match s.toList with
  | '+' :: cs => (number? cs).filter (· < limit)
  | '-' :: cs => (number? cs).filter (· = 0)
  | cs => (number? cs).filter (· < limit)

/-- Whether a slot takes a value as it is written. -/
def Slot.accepts (slot : Slot) (value : String) : Except UsageError Unit :=
  match slot with
  | .maxKeys => if (countBelow? word32 value).isSome then .ok () else .error .badValue
  | .output | .file => if value.isEmpty then .error .noValue else .ok ()
  | _ => .ok ()

/-- The arguments of one level as far as they are read. -/
structure Reading where
  /-- The values that are settled. -/
  settled : List (Slot × String) := []
  /-- The last slot that was named, with the values that it has got so far. -/
  pending : Option (Slot × List String) := none
  /-- How many places are taken. -/
  taken : Nat := 0
  /-- After `--`. -/
  namesEnded : Bool := false
  /-- The last argument was an option whose value follows. -/
  expectsValue : Bool := false

namespace Reading

/-- The value of a slot. -/
def value? (r : Reading) (slot : Slot) : Option String := r.settled.lookup slot

/-- The values of a slot in the order of the arguments. -/
def values (r : Reading) (slot : Slot) : List String :=
  (r.settled.filter (·.1 == slot)).map (·.2)

/-- Give a slot its values. Only a list of paths takes values twice. -/
def settle (r : Reading) (slot : Slot) (values : List String) : Except UsageError Reading := do
  if values.isEmpty then throw .noValue
  if slot != .paths && (r.value? slot).isSome then throw .repeated
  for value in values do slot.accepts value
  return { r with settled := r.settled ++ values.map fun value => (slot, value) }

/-- Settle the last slot that was named. -/
def settlePending (r : Reading) : Except UsageError Reading :=
  match r.pending with
  | none => .ok r
  | some (slot, values) => { r with pending := none }.settle slot values

/-- An option with the value that is written in the same argument, if one is. -/
def option (r : Reading) (kind : OptionKind) (value : Option String) :
    Except UsageError Reading := do
  let r ← r.settlePending
  match kind, value with
  | .valued slot, some value => return { ← r.settle slot [value] with expectsValue := false }
  | .valued slot, none => return { r with pending := some (slot, []), expectsValue := true }
  | .flag slot, _ => return { ← r.settle slot ["true"] with expectsValue := false }
  | .help, _ => throw .help
  | .version, _ => throw .version

/-- An option by its long name. -/
def long (level : Option Verb) (r : Reading) (cs : List Char) : Except UsageError Reading :=
  let name := cs.takeWhile (· != '=')
  let value :=
    match cs.drop name.length with
    | [] => none
    | _ :: value => some (String.ofList value)
  match longOption? level (String.ofList name), value with
  | none, _ => .error .unknownArgument
  | some (.valued slot), value => r.option (.valued slot) value
  | some kind, none => r.option kind none
  | some _, some _ => .error .unwantedValue

/-- Options by their letters. What follows the letter of an option with a value is the value. -/
def short (level : Option Verb) (r : Reading) : List Char → Except UsageError Reading
  | [] => .ok r
  | c :: cs =>
      match shortOption? level c with
      | none => .error .unknownArgument
      | some (.valued slot) =>
          r.option (.valued slot) <|
            match cs with
            | [] => none
            | '=' :: value => some (String.ofList value)
            | value => some (String.ofList value)
      | some kind => do (← r.option kind none).short level cs

/-- An argument without a name. -/
def place (level : Option Verb) (r : Reading) (arg : String) : Except UsageError Reading :=
  match (places level)[r.taken]? with
  | none =>
      if level.isNone && !(r.namesEnded && (arg == "help" || (Verb.ofName? arg).isSome)) then
        .error .unknownCommand
      else .error .unknownArgument
  | some .paths => do
      let before :=
        match r.pending with
        | some (.paths, values) => values
        | _ => []
      let r ← if before.isEmpty then r.settlePending else pure r
      return { r with pending := some (.paths, before ++ [arg]), expectsValue := false }
  | some slot => do
      let r ← r.settlePending
      return { r with pending := some (slot, [arg]), taken := r.taken + 1, expectsValue := false }

/-- One argument that is not the name of a command. -/
def argument (level : Option Verb) (r : Reading) (arg : String) : Except UsageError Reading :=
  if r.namesEnded then r.place level arg
  else
    match arg.toList with
    | ['-', '-'] => .ok { r with namesEnded := true }
    | '-' :: '-' :: cs => r.long level cs
    | '-' :: c :: cs => r.short level (c :: cs)
    | _ =>
        match r.expectsValue, r.pending with
        | true, some (slot, values) =>
            .ok { r with pending := some (slot, values ++ [arg]), expectsValue := false }
        | _, _ => r.place level arg

end Reading

/-- The arguments before the command, up to the command. `help` takes names of commands. -/
def readBefore (r : Reading) : List String →
    Except UsageError (Reading × Option (Verb × List String))
  | [] => .ok (r, none)
  | arg :: rest =>
      if r.namesEnded || r.expectsValue then do readBefore (← r.argument none arg) rest
      else
        match Verb.ofName? arg with
        | some verb => .ok (r, some (verb, rest))
        | none =>
            if arg == "help" then
              match rest with
              | [] | ["help"] => .error .help
              | [name] => .error (if (Verb.ofName? name).isSome then .help else .unknownCommand)
              | _ => .error .unknownCommand
            else do readBefore (← r.argument none arg) rest

/-- The command that is read. -/
def commandOf (verb : Verb) (r : Reading) : Except UsageError Command :=
  let recursive := (r.value? .recursive).isSome
  match verb, r.value? .path with
  | .rm, _ =>
      if (r.values .paths).isEmpty then .error .missingArgument
      else .ok (.rm (r.values .paths) recursive)
  | _, none => .error .missingArgument
  | .ls, some path => .ok (.ls path recursive ((r.value? .maxKeys).bind (countBelow? word32)))
  | .get, some path => .ok (.get path (r.value? .output))
  | .put, some path =>
      match r.value? .file with
      | none => .error .missingArgument
      | some file => .ok (.put file path (r.value? .contentType))
  | .stat, some path => .ok (.stat path)

/-- The command line of arguments. An option that stands before and after the command counts as
it stands after. -/
def parseArguments (args : List String) : Except UsageError Invocation := do
  let (before, found) ← readBefore {} args
  match found with
  | none =>
      let before ← before.settlePending
      throw (if before.settled.isEmpty then .nothingGiven else .missingCommand)
  | some (verb, rest) =>
      let after ← rest.foldlM (fun r arg => r.argument (some verb) arg) ({} : Reading)
      let after ← after.settlePending
      let command ← commandOf verb after
      let before ← before.settlePending
      let value? (slot : Slot) := (after.value? slot).orElse fun _ => before.value? slot
      return ⟨command, value? .config, value? .profile, (value? .logLevel).getD "info"⟩

end ObjectStore.CommandLine
