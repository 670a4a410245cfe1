import ObjectStore.CommandLine.Course
import ObjectStore.Request.Named
import Mathlib.Data.List.DropRight

/-!
# Objects as they are written

The two forms in which a command line names an object, what counts of the key there, and what the
commands on one object ask for when they are given a path.
-/

namespace ObjectStore

/-- A text without the blanks at its end. -/
def Text.trimEnd (s : String) : String := String.ofList (s.toList.rdropWhile isBlank)

/-- The bucket of a call and the key that the path of its request stands for. -/
def Call.object? : Call → Option (String × String)
  | .send request _ => (Request.keyOfPath request.target).map fun key => (request.bucket, key)
  | .ready _ => none

namespace CommandLine

open Text

/-- What the path of an object begins with. -/
inductive Scheme
  | url
  | short
  deriving Repr, DecidableEq

def Scheme.text : Scheme → String
  | .url => "s3://"
  | .short => "s3/"

/-- The path of an object. -/
def Scheme.path (scheme : Scheme) (bucket key : String) : String :=
  scheme.text ++ bucket ++ "/" ++ key

/-- The location that the path of an object stands for: blanks at the end of the key do not count,
and when nothing else is left there is no key. -/
def Location.ofObject (bucket key : String) : Location :=
  ⟨bucket, if (trimEnd key).isEmpty then none else some (trimEnd key)⟩

/-- The commands on one object, given a path, ask for the object with a key in a bucket. -/
structure Addresses (path bucket key : String) : Prop where
  get : ∀ options output, start options (.get path output) =
    .ask [.get bucket key] (.download ⟨bucket, some key⟩ output)
  put : ∀ options file contentType, start options (.put file path contentType) =
    { next := .asks (.read file) (.upload bucket key file contentType) }
  upload : ∀ options file contentType body,
    resume options (.upload bucket key file contentType) (.content (.ok body)) =
      .ask [.put bucket key body contentType none] (.uploaded bucket key file body.length)
  rm : ∀ options, start options (.rm [path] false) =
    .ask [.delete bucket key] (.removed bucket key { recursive := false, groups := [] })
  /-- Among other paths the key is added to those of its bucket. -/
  rmAmong : ∀ paths, groupsOf (paths ++ [path]) = (groupsOf paths).map (addKey bucket key)
  stat : ∀ options, start options (.stat path) =
    .ask [.list options { bucket, keyPrefix := some key, maxKeys := some 1 }] (.stat bucket key)
  /-- Of a page, only an entry with this very key is shown. -/
  shown : ∀ options page,
    (∃ s ∈ page.summaries, s.key = key ∧
      answered options (.stat bucket key) (.listing page) =
        Turn.stop.afterLines (statLines bucket s)) ∨
    (∀ s ∈ page.summaries, s.key ≠ key) ∧
      answered options (.stat bucket key) (.listing page) = .fail (.noObject key)
  /-- The paths of the requests stand for the key without the slashes at its head. -/
  named : ∀ body contentType,
    ∀ call ∈ [Call.get bucket key, .put bucket key body contentType none, .delete bucket key],
      call.object? = some (bucket, Request.trimmedKey key)

end CommandLine

end ObjectStore
