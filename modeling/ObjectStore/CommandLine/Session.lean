import ObjectStore.CommandLine.Course
import ObjectStore.Simulation

/-!
# Sessions

A command from its first turn to its last one, with a simulated service and a working directory
that answer its questions.
-/

namespace ObjectStore.CommandLine

/-- The client of a configuration that is named or comes from the environment. -/
def clientOf (read : Reader) (env : Environment) (epoch : Calendar.Instant)
    (config profile : Option String) : Except CommandError Client := do
  let loaded ← (Config.load read env config profile).mapError .notLoaded
  match loaded.chosen profile with
  | none => throw .noProfile
  | some chosen =>
      let credentials ← chosen.credentials.mapError .badCredentials
      (Client.ofConfig (loaded.clientConfig chosen) (.fixed credentials) epoch).mapError .noClient

/-- What answers the questions of a command, and what it has shown. -/
structure Session where
  simulation : Simulation
  directory : Directory
  stdout : List UInt8 := []
  stderr : List UInt8 := []

namespace Session

/-- The answer to a question. -/
def answer (s : Session) : Question → Reply × Session
  | .calls calls =>
      let (results, simulation) := s.simulation.perform calls
      (.results results, { s with simulation })
  | .read file => (.content (s.directory.read file), s)
  | .write file content =>
      match s.directory.write file content with
      | .ok directory => (.written (.ok ()), { s with directory })
      | .error e => (.written (.error e), s)

/-- Go on from a turn; `fuel` bounds the turns. A command that has more of them is left off. -/
def goOn (options : ListingOptions) : Nat → Session → Turn → Except CommandError Unit × Session
  | 0, s, _ => (.ok (), s)
  | fuel + 1, s, t =>
      let s := { s with stdout := s.stdout ++ t.stdout, stderr := s.stderr ++ t.stderr }
      match t.next with
      | .over result => (result, s)
      | .asks question wait =>
          let (reply, s) := s.answer question
          goOn options fuel s (resume options wait reply)

/-- A number of turns that is enough: a turn takes a path of the command or an answer of the
script. -/
def fuel (s : Session) : Command → Nat
  | .rm paths _ => 2 * (s.simulation.script.length + paths.length) + 4
  | _ => 2 * s.simulation.script.length + 4

/-- Carry out a command, and close the client. -/
def run (s : Session) (command : Command) : Except CommandError Unit × Session :=
  let options := s.simulation.client.options
  let (result, s) := s.goOn options (s.fuel command) (start options command)
  (result, { s with simulation := s.simulation.close })

end Session

/-- Where a program runs. -/
structure Surroundings where
  directory : Directory := {}
  environment : Environment := {}
  network : Network
  script : List Scripted := []
  epoch : Calendar.Instant := default

/-- What a program leaves behind. -/
structure Remains where
  result : Except CommandError Unit
  directory : Directory
  stdout : List UInt8 := []
  stderr : List UInt8 := []
  requests : List WireRequest := []

/-- Run a command line. -/
def Invocation.run (i : Invocation) (at_ : Surroundings) : Remains :=
  match clientOf at_.directory.read at_.environment at_.epoch i.config i.profile with
  | .error e => { result := .error e, directory := at_.directory }
  | .ok client =>
      let simulation := Simulation.ofClient client at_.network at_.script
      let (result, s) := Session.run ⟨simulation, at_.directory, [], []⟩ i.command
      ⟨result, s.directory, s.stdout, s.stderr, s.simulation.requests⟩

end ObjectStore.CommandLine
