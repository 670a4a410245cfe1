import ObjectStore.Call
import ObjectStore.CommandLine.Arguments
import ObjectStore.CommandLine.CommandError
import ObjectStore.Text.ByteSize

/-!
# The course of a command

A command shows something, asks the service or the working directory for something, and goes on
with the answer. Each turn of this is a function of plain data, so that a command needs no end:
a listing goes on for as long as the service has pages.
-/

namespace ObjectStore.CommandLine

open Text

/-- The keys that are removed from one bucket. -/
structure Group where
  bucket : String
  keys : List String
  deriving Repr, DecidableEq

/-- The removal of groups of keys: those still to do, and the keys that were not deleted. -/
structure Removal where
  recursive : Bool
  groups : List Group
  failed : Nat := 0
  deriving Repr, DecidableEq

/-- The removal of all keys with a prefix. -/
structure Sweep where
  bucket : String
  keyPrefix : String
  deleted : Nat := 0
  failed : Nat := 0
  rest : Removal
  deriving Repr, DecidableEq

/-- What a command does with the answer that it waits for. -/
inductive Wait
  /-- Print a page, after so many entries. -/
  | page (printed : Nat)
  | download (object : Location) (output : Option String)
  /-- The content of an object is saved. -/
  | saved (object : Location) (file : String) (length : Nat)
  /-- Upload the content of a file. -/
  | upload (bucket key file : String) (contentType : Option String)
  | uploaded (bucket key file : String) (size : Nat)
  /-- One object is deleted. -/
  | removed (bucket key : String) (rest : Removal)
  /-- Batches of objects are deleted. -/
  | removedAll (bucket : String) (rest : Removal)
  /-- Delete the objects of a page. -/
  | sweep (s : Sweep)
  /-- The objects of a page are deleted. -/
  | swept (s : Sweep) (page : Listing)
  | stat (bucket key : String)
  deriving Repr

/-- What a command asks for. -/
inductive Question
  /-- Calls that are carried out at the same time. -/
  | calls (calls : List Call)
  | read (file : String)
  | write (file : String) (content : List UInt8)

/-- The answer to a question. -/
inductive Reply
  | results (results : List Result)
  | content (content : Except FileError (List UInt8))
  | written (outcome : Except FileError Unit)

/-- How a command goes on. -/
inductive Next
  | over (result : Except CommandError Unit)
  | asks (question : Question) (wait : Wait)

/-- One turn of a command: what it shows, and how it goes on. -/
structure Turn where
  stdout : List UInt8 := []
  stderr : List UInt8 := []
  next : Next

namespace Turn

def fail (e : CommandError) : Turn := { next := .over (.error e) }

def ask (calls : List Call) (wait : Wait) : Turn := { next := .asks (.calls calls) wait }

/-- Show a line before a turn. -/
def afterLine (line : String) (t : Turn) : Turn :=
  { t with stdout := Utf8.ofText (line ++ "\n") ++ t.stdout }

/-- Show lines before a turn. -/
def afterLines (lines : List String) (t : Turn) : Turn := lines.foldr afterLine t

/-- Show lines on the second stream before a turn. -/
def afterErrors (lines : List String) (t : Turn) : Turn :=
  { t with stderr := (lines.flatMap fun line => Utf8.ofText (line ++ "\n")) ++ t.stderr }

/-- A command is over. -/
def stop : Turn := { next := .over (.ok ()) }

end Turn

/-- The name of an object. -/
def objectName (bucket key : String) : String := "s3://" ++ bucket ++ "/" ++ key

/-- A date, or the blanks that take its place. -/
def dateText : Option Calendar.Instant → String
  | none => String.ofList (List.replicate 23 ' ')
  | some t => t.displayText

/-- A text with blanks before it, up to a width. -/
def alignRight (width : Nat) (s : String) : String :=
  String.ofList (List.replicate (width - s.length) ' ') ++ s

/-- One line of a listing. -/
def entryLine (date : Option Calendar.Instant) (size name : String) : String :=
  "[" ++ dateText date ++ "] " ++ alignRight 7 size ++ " " ++ name

/-- The lines of a page, common prefixes first. -/
def pageLines (page : Listing) : List String :=
  page.commonPrefixes.map (entryLine none "PRE")
    ++ page.summaries.map fun s => entryLine s.lastModified (ByteSize.text s.size) s.key

/-- What a listing of a location asks for. -/
def listingRequest (l : Location) (recursive : Bool) (maxKeys : Option Nat) : ListingRequest :=
  { bucket := l.bucket, keyPrefix := l.key, delimiter := if recursive then none else some "/",
    maxKeys }

/-- The bucket and the key of a path. -/
def objectOf (command path : String) : Except CommandError (String × String) := do
  let l ← (Location.parse path).mapError .location
  match l.key with
  | none => throw (.keyRequiredFor command)
  | some key => return (l.bucket, key)

/-- Add a key to the group of its bucket, or to a new last group. -/
def addKey (bucket key : String) : List Group → List Group
  | [] => [⟨bucket, [key]⟩]
  | g :: rest =>
      if g.bucket = bucket then { g with keys := g.keys ++ [key] } :: rest
      else g :: addKey bucket key rest

/-- The keys of paths by their buckets, in the order in which the buckets come first. -/
def groupsOf (paths : List String) : Except CommandError (List Group) :=
  paths.foldlM (fun groups path => do
    let l ← (Location.parse path).mapError .location
    match l.key with
    | none => throw (.keyRequiredIn path)
    | some key => return addKey l.bucket key groups) []

/-- Cut a list into pieces of at most so many elements; `fuel` bounds the pieces. -/
def chunksFor {α : Type} (size : Nat) : Nat → List α → List (List α)
  | 0, _ => []
  | _ + 1, [] => []
  | fuel + 1, xs => xs.take size :: chunksFor size fuel (xs.drop size)

/-- The batches in which keys are deleted. -/
def batches (keys : List String) : List (List String) :=
  chunksFor maxDeleteKeys keys.length keys

/-- What a sweep asks for first. -/
def Sweep.request (s : Sweep) : ListingRequest :=
  { bucket := s.bucket, keyPrefix := some s.keyPrefix, maxKeys := some maxDeleteKeys }

/-- Go on with a removal. -/
def Removal.turn (options : ListingOptions) (r : Removal) : Turn :=
  match _h : r.groups with
  | [] => if r.failed = 0 then .stop else .fail (.notDeleted r.failed)
  | ⟨_, []⟩ :: groups => Removal.turn options { r with groups := groups }
  | ⟨bucket, key :: keys⟩ :: groups =>
      if r.recursive then
        let rest := { r with groups := ⟨bucket, keys⟩ :: groups }
        let s : Sweep := { bucket, keyPrefix := key, rest }
        .ask [.list options s.request] (.sweep s)
      else if keys.isEmpty then
        .ask [.delete bucket key] (.removed bucket key { r with groups := groups })
      else
        .ask ((batches (key :: keys)).map (Call.deleteObjects bucket))
          (.removedAll bucket { r with groups := groups })
termination_by r.groups.length
decreasing_by simp [_h]

/-- The first turn of a command. -/
def start (options : ListingOptions) : Command → Turn
  | .ls path recursive maxKeys =>
      match Location.parse path with
      | .error e => .fail (.location e)
      | .ok l => .ask [.list options (listingRequest l recursive maxKeys)] (.page 0)
  | .get path output =>
      match objectOf "get" path with
      | .error e => .fail e
      | .ok (bucket, key) => .ask [.get bucket key] (.download ⟨bucket, some key⟩ output)
  | .put file path contentType =>
      match objectOf "put" path with
      | .error e => .fail e
      | .ok (bucket, key) => { next := .asks (.read file) (.upload bucket key file contentType) }
  | .rm paths recursive =>
      match groupsOf paths with
      | .error e => .fail e
      | .ok groups => Removal.turn options { recursive, groups }
  | .stat path =>
      match objectOf "stat" path with
      | .error e => .fail e
      | .ok (bucket, key) =>
          .ask [.list options { bucket, keyPrefix := some key, maxKeys := some 1 }]
            (.stat bucket key)

/-- The lines on a bulk delete: what was deleted, and what was not. -/
def deletedLines (bucket : String) (d : Deletion) : List String :=
  d.deleted.map fun e => "Deleted: " ++ objectName bucket e.key

def failureLines (d : Deletion) : List String :=
  d.failures.map fun e => "Error deleting " ++ e.key ++ ": " ++ e.code ++ " - " ++ e.message

/-- Show the outcome of a bulk delete before a turn. -/
def report (bucket : String) (d : Deletion) (t : Turn) : Turn :=
  (t.afterErrors (failureLines d)).afterLines (deletedLines bucket d)

/-- Print a page, and ask for the next one. -/
def listed (options : ListingOptions) (printed : Nat) (page : Listing) : Turn :=
  let lines := pageLines page
  let printed := printed + lines.length
  let t : Turn :=
    if page.truncated then .ask [.listNext options page] (.page printed)
    else if printed = 0 then Turn.stop.afterLine "No objects found"
    else .stop
  t.afterLines lines

/-- Ask for the next page of a sweep, or end it. -/
def Sweep.goOn (options : ListingOptions) (s : Sweep) (page : Listing) : Turn :=
  if page.truncated then .ask [.listNext options page] (.sweep s)
  else
    (Removal.turn options { s.rest with failed := s.rest.failed + s.failed }).afterLine
      ("Total deleted: " ++ toString s.deleted ++ " objects")

/-- Delete the objects of a page. -/
def Sweep.page (options : ListingOptions) (s : Sweep) (page : Listing) : Turn :=
  if page.summaries.isEmpty then s.goOn options page
  else .ask [.deleteObjects s.bucket (page.summaries.map (·.key))] (.swept s page)

/-- The outcomes of the batches of one bucket, up to the first failure. -/
def removedAll (options : ListingOptions) (bucket : String) (rest : Removal) :
    List Result → Turn
  | [] => rest.turn options
  | .error e :: _ => .fail (.operation e)
  | .ok (.deletion d) :: results =>
      report bucket d
        (removedAll options bucket { rest with failed := rest.failed + d.failures.length } results)
  | .ok _ :: results => removedAll options bucket rest results

/-- What is shown of an object. -/
def statLines (bucket : String) (s : Summary) : List String :=
  ["Object: " ++ objectName bucket s.key,
    "Size: " ++ ByteSize.text s.size ++ " (" ++ toString s.size ++ ")",
    "Last Modified: " ++ trim (dateText s.lastModified)]
  ++ (s.etag.map fun etag => "ETag: " ++ etag).toList
  ++ (s.storageClass.map fun name => "Storage Class: " ++ name).toList
  ++ (s.owner.map fun o => "Owner: " ++ o.displayName ++ " (" ++ o.id ++ ")").toList

/-- The turn of a command that has got a value. -/
def answered (options : ListingOptions) : Wait → Answer → Turn
  | .page printed, .listing page => listed options printed page
  | .download _ none, .download d => { Turn.stop with stdout := d.content }
  | .download object (some file), .download d =>
      { next := .asks (.write file d.content) (.saved object file d.length) }
  | .uploaded bucket key file size, .stored etag =>
      Turn.stop.afterLines
        ((file ++ " -> " ++ objectName bucket key ++ " (" ++ ByteSize.text size ++ ")")
          :: (etag.map fun etag => "ETag: " ++ etag).toList)
  | .removed bucket key rest, _ =>
      (rest.turn options).afterLine ("Deleted: " ++ objectName bucket key)
  | .sweep s, .listing page => s.page options page
  | .swept s page, .deletion d =>
      report s.bucket d <|
        Sweep.goOn options
          { s with
            deleted := s.deleted + d.deleted.length
            failed := s.failed + d.failures.length } page
  | .stat bucket key, .listing page =>
      match page.summaries.find? (·.key == key) with
      | none => .fail (.noObject key)
      | some s => Turn.stop.afterLines (statLines bucket s)
  | _, _ => .stop

/-- The turn of a command after an answer. -/
def resume (options : ListingOptions) : Wait → Reply → Turn
  | .removedAll bucket rest, .results results => removedAll options bucket rest results
  | _, .results (.error e :: _) => .fail (.operation e)
  | wait, .results (.ok a :: _) => answered options wait a
  | .upload bucket key file contentType, .content content =>
      match content with
      | .error e => .fail (.unreadable file e)
      | .ok body =>
          .ask [.put bucket key body contentType none] (.uploaded bucket key file body.length)
  | .saved object file length, .written outcome =>
      match outcome with
      | .error e => .fail (.unwritable file e)
      | .ok _ =>
          Turn.stop.afterErrors
            [objectName object.bucket (object.key.getD "") ++ " -> " ++ file ++ " ("
              ++ ByteSize.text length ++ ")"]
  | _, _ => .stop

end ObjectStore.CommandLine
