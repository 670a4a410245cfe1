/-!
# Environments

The variables that a program is started with.
-/

namespace ObjectStore

/-- Variables by name, each name at most once. -/
structure Environment where
  entries : List (String × String) := []
  deriving Repr, Inhabited

namespace Environment

/-- The value of a variable that is set. -/
def get? (env : Environment) (name : String) : Option String :=
  (env.entries.find? (·.1 == name)).map (·.2)

/-- What follows a name and an equals sign in the first variable that begins with them. A
variable is kept as its name, an equals sign and its value, so a name that has such a sign itself
reaches into a value. -/
def tail? (env : Environment) (name : String) : Option String :=
  if name.isEmpty then none
  else
    let start := name.toList ++ ['=']
    env.entries.findSome? fun e =>
      let kept := e.1.toList ++ '=' :: e.2.toList
      if start.isPrefixOf kept then some (String.ofList (kept.drop start.length)) else none

def unset (env : Environment) (name : String) : Environment :=
  ⟨env.entries.filter (·.1 != name)⟩

def set (env : Environment) (name value : String) : Environment :=
  ⟨(name, value) :: (env.unset name).entries⟩

/-- Set a variable that is not set yet. -/
def setMissing (env : Environment) (name value : String) : Environment :=
  if (env.get? name).isSome then env else env.set name value

/-- The environment of pairs; later pairs count. -/
def ofList (entries : List (String × String)) : Environment :=
  entries.foldl (fun env e => env.set e.1 e.2) {}

theorem get?_set (env : Environment) (name value : String) :
    (env.set name value).get? name = some value := by
  simp [get?, set]

theorem get?_unset (env : Environment) (name : String) : (env.unset name).get? name = none := by
  simp [get?, unset, List.find?_eq_none]

end Environment

end ObjectStore
