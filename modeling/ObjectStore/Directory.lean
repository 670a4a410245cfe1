import ObjectStore.Http.Response

/-!
# Directories

The files below a working directory, by the names on the way to them, and how reading and
writing a path can fail. A path is walked name by name; every name but the last must lead to a
directory. A directory is there as long as a file lies below it. Of what lies outside of the
working directory, only the directories above it and the usual ones of a system are there.
-/

namespace ObjectStore

open Text

/-- Why a path cannot be read or written. -/
inductive FileError
  | notFound
  | notDirectory
  | isDirectory
  | nameTooLong
  | badName
  | notText
  | other (cause : String)
  deriving Repr, DecidableEq

/-- The wording of an error. -/
def FileError.message : FileError → String
  | .notFound => "No such file or directory (os error 2)"
  | .notDirectory => "Not a directory (os error 20)"
  | .isDirectory => "Is a directory (os error 21)"
  | .nameTooLong => "File name too long (os error 36)"
  | .badName => "file name contained an unexpected NUL byte"
  | .notText => "stream did not contain valid UTF-8"
  | .other cause => cause

/-- Files by their names, those of the directories on the way first. -/
structure Directory where
  files : List (List String × List UInt8) := []
  deriving Repr, Inhabited

namespace Directory

/-- Where a walk stands: at a directory or a file below the working directory, where nothing is,
or outside of it. -/
inductive Spot
  | inside (at_ : List String)
  | file (at_ : List String) (content : List UInt8)
  | missing (at_ : List String)
  | root
  | above
  | system (name : String)
  | sink
  | nowhere
  deriving Repr, DecidableEq

/-- The most bytes of a name. -/
def maxName : Nat := 255

/-- The most bytes of a path. -/
def maxPath : Nat := 4095

/-- The directories that a system has by its standard. -/
def systemDirectories : List String :=
  ["bin", "boot", "dev", "etc", "home", "lib", "media", "mnt", "opt", "proc", "root", "run",
    "sbin", "srv", "sys", "tmp", "usr", "var"]

/-- The names of a path. -/
def names (path : String) : List String :=
  ((path.toList.splitOn '/').map String.ofList).filter (!·.isEmpty)

/-- Whether a path names a directory by its form. -/
def endsInSlash (path : String) : Bool := path.toList.getLast? == some '/'

def file? (d : Directory) (at_ : List String) : Option (List UInt8) := d.files.lookup at_

/-- Whether a directory is there: the working directory, or one with a file below it. -/
def hasBelow (d : Directory) (at_ : List String) : Bool :=
  at_.isEmpty || d.files.any fun f => at_.isPrefixOf f.1 && at_ != f.1

/-- What is at a place below the working directory. -/
def spotAt (d : Directory) (at_ : List String) : Spot :=
  match d.file? at_ with
  | some content => .file at_ content
  | none => if d.hasBelow at_ then .inside at_ else .missing at_

/-- Where a name leads from a spot. A dot leads nowhere else, and two dots to the directory
above. -/
def step (d : Directory) (spot : Spot) (name : String) : Except FileError Spot :=
  let enter (next : Spot) : Except FileError Spot :=
    if maxName < (Utf8.ofText name).length then .error .nameTooLong else .ok next
  match spot with
  | .file _ _ | .sink => .error .notDirectory
  | .missing _ | .nowhere => .error .notFound
  | .inside at_ =>
      if name = "." then .ok spot
      else if name = ".." then .ok (if at_.isEmpty then .above else .inside at_.dropLast)
      else enter (d.spotAt (at_ ++ [name]))
  | .root =>
      if name = "." ∨ name = ".." then .ok spot
      else enter (if systemDirectories.contains name then .system name else .nowhere)
  | .above => if name = "." ∨ name = ".." then .ok spot else enter .nowhere
  | .system directory =>
      if name = "." then .ok spot
      else if name = ".." then .ok .root
      else enter (if directory = "dev" ∧ name = "null" then .sink else .nowhere)

/-- Where a path leads. -/
def walk (d : Directory) (path : String) : Except FileError Spot :=
  if path.isEmpty then .error .notFound
  else if path.toList.contains (Char.ofNat 0) then .error .badName
  else if maxPath < (Utf8.ofText path).length then .error .nameTooLong
  else (names path).foldlM d.step (if path.toList.head? = some '/' then .root else .inside [])

/-- The content of a file. -/
def read (d : Directory) (path : String) : Except FileError (List UInt8) := do
  match ← d.walk path with
  | .file _ content => if endsInSlash path then throw .notDirectory else return content
  | .sink => if endsInSlash path then throw .notDirectory else return []
  | .missing _ | .nowhere => throw .notFound
  | .inside _ | .root | .above | .system _ => throw .isDirectory

/-- Put a file into a directory that is there. -/
def write (d : Directory) (path : String) (content : List UInt8) : Except FileError Directory :=
  let put (at_ : List String) : Directory := ⟨(at_, content) :: d.files.filter (·.1 != at_)⟩
  do
    match ← d.walk path with
    | .file at_ _ => if endsInSlash path then throw .notDirectory else return put at_
    | .missing at_ => if endsInSlash path then throw .isDirectory else return put at_
    | .sink => return d
    | .nowhere => throw .notFound
    | .inside _ | .root | .above | .system _ => throw .isDirectory

/-- The directory of files by their paths. -/
def ofList (files : List (String × List UInt8)) : Directory :=
  ⟨files.map fun f => ((names f.1).filter (· != "."), f.2)⟩

end Directory

end ObjectStore
