import ObjectStore.Text.Blank

/-!
# Locations

How a command line names a bucket or an object of it: `s3://bucket/key` or `s3/bucket/key`.
-/

namespace ObjectStore.CommandLine

open Text

/-- A bucket, and a key in it unless the bucket as a whole is meant. -/
structure Location where
  bucket : String
  key : Option String
  deriving Repr, DecidableEq

/-- Why a text names no location. -/
inductive LocationError
  | noScheme (path : String)
  | noBucket
  deriving Repr, DecidableEq

/-- The wording of an error. -/
def LocationError.message : LocationError → String
  | .noScheme path => "Invalid S3 path '" ++ path ++ "'. Expected: s3://bucket/key"
  | .noBucket => "Bucket name cannot be empty"

namespace Location

/-- What follows a text at the head of another one. -/
def after? : List Char → List Char → Option (List Char)
  | [], cs => some cs
  | _ :: _, [] => none
  | m :: ms, c :: cs => if m = c then after? ms cs else none

/-- What follows the scheme. -/
def body? (cs : List Char) : Option (List Char) :=
  (after? "s3://".toList cs).orElse fun _ => after? "s3/".toList cs

/-- Split a body at its first slash. An empty key is none. -/
def ofBody (body : List Char) : Except LocationError Location :=
  let bucket := body.takeWhile (· != '/')
  let key := body.drop (bucket.length + 1)
  if bucket.isEmpty then .error .noBucket
  else .ok ⟨String.ofList bucket, if key.isEmpty then none else some (String.ofList key)⟩

/-- The location that a text names; blanks around it do not count. -/
def parse (path : String) : Except LocationError Location :=
  let cs := stripList isBlank path.toList
  match body? cs with
  | none => .error (.noScheme (String.ofList cs))
  | some body => ofBody body

end Location

end ObjectStore.CommandLine
