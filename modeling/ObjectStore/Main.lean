import ObjectStore.CommandLine.Session
import ObjectStore.CommandLine.Usage

/-!
# The program

The command line among real files and variables. The program has no sockets: to it every network
is out of reach, and a command that needs the service ends with that failure.
-/

namespace ObjectStore.CommandLine

/-- Why the system did not read or write a file. -/
def fileError : IO.Error → FileError
  | .noFileOrDirectory _ _ _ => .notFound
  | e => .other (toString e)

/-- Read a file. -/
def readFile (path : String) : IO (Except FileError (List UInt8)) := do
  try
    return .ok (← IO.FS.readBinFile path).toList
  catch e => return .error (fileError e)

/-- Write a file. -/
def writeFile (path : String) (content : List UInt8) : IO (Except FileError Unit) := do
  try
    IO.FS.writeBinFile path (ByteArray.mk content.toArray)
    return .ok ()
  catch e => return .error (fileError e)

/-- Show bytes on a stream. -/
def display (stream : IO.FS.Stream) (content : List UInt8) : IO Unit := do
  stream.write (ByteArray.mk content.toArray)
  stream.flush

/-- The variables of some names that are set. -/
def readEnvironment (names : List String) : IO Environment := do
  let found ← names.filterMapM fun name => do
    return (← IO.getEnv name).map fun value => (name, value)
  return .ofList found

/-- The answer to a question; pauses of the client take their time. -/
def answer (s : Simulation) : Question → IO (Reply × Simulation)
  | .calls calls => do
      let (results, after) := s.perform calls
      IO.sleep ((after.client.now - s.client.now) / 1000000).toUInt32
      return (.results results, after)
  | .read file => return (.content (← readFile file), s)
  | .write file content => return (.written (← writeFile file content), s)

/-- Go on from a turn to the end of the command. -/
partial def goOn (options : ListingOptions) (s : Simulation) (t : Turn) :
    IO (Except CommandError Unit) := do
  display (← IO.getStdout) t.stdout
  display (← IO.getStderr) t.stderr
  match t.next with
  | .over result => return result
  | .asks question wait =>
      let (reply, s) ← answer s question
      goOn options s (resume options wait reply)

/-- Carry out a command line. -/
def carryOut (i : Invocation) : IO (Except CommandError Unit) := do
  let file := i.config.getD ".env"
  let content ← readFile file
  let env ← readEnvironment (Config.variableNames ++ Dotenv.mentioned (content.toOption.getD []))
  let read : Reader := fun path => if path = file then content else .error .notFound
  match clientOf read env default i.config i.profile with
  | .error e => return .error e
  | .ok client =>
      let options := client.options
      goOn options (.ofClient client .offline []) (start options i.command)

end ObjectStore.CommandLine

open ObjectStore.CommandLine in
/-- Run the program. A failure of a command is told by 1, and wrong arguments by 2. -/
def main (args : List String) : IO UInt32 := do
  match parseArguments args with
  | .error e =>
      let stream ← if e.isAnswer then IO.getStdout else IO.getStderr
      stream.putStr e.text
      return if e.isAnswer then 0 else 2
  | .ok i =>
      match ← carryOut i with
      | .ok _ => return 0
      | .error e =>
          (← IO.getStderr).putStr e.report
          return 1
