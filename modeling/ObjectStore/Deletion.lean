import ObjectStore.Xml.Decoder

/-!
# Outcome of a bulk delete

Which keys of one request were deleted and which were not, read from a `DeleteResult` document.
-/

namespace ObjectStore

open Xml

/-- A key that was deleted. -/
structure Deleted where
  key : String := ""
  versionId : Option String := none
  deriving Repr, DecidableEq, Inhabited

/-- A key that was not deleted, and why. -/
structure DeleteFailure where
  key : String := ""
  code : String := ""
  message : String := ""
  deriving Repr, DecidableEq, Inhabited

/-- The outcome of one bulk delete, key by key. -/
structure Deletion where
  deleted : List Deleted := []
  failures : List DeleteFailure := []
  deriving Repr, DecidableEq, Inhabited

/-- The elements of a delete result. -/
inductive DeletionTag
  | root
  | deleted
  | failure
  | key
  | versionId
  | code
  | message
  | unknown
  deriving Repr, DecidableEq

namespace Deletion

/-- The known elements by name. -/
def table : Table DeletionTag :=
  Table.ofList .unknown
    [("DeleteResult", .root), ("Deleted", .deleted), ("Error", .failure), ("Key", .key),
      ("VersionId", .versionId), ("Code", .code), ("Message", .message)]

/-- A start tag of an entry begins it. -/
def onStart (tag : DeletionTag) (d : Deletion) : Deletion :=
  match tag with
  | .deleted => { d with deleted := d.deleted ++ [{}] }
  | .failure => { d with failures := d.failures ++ [{}] }
  | _ => d

/-- Change the last key that was deleted. -/
def onDeleted (f : Deleted → Deleted) (d : Deletion) : Deletion × Option DecodeError :=
  match d.deleted.getLast? with
  | none => (d, some (.malformed "text outside <Deleted>"))
  | some last => ({ d with deleted := d.deleted.dropLast ++ [f last] }, none)

/-- Change the last key that was not deleted. -/
def onFailure (f : DeleteFailure → DeleteFailure) (d : Deletion) :
    Deletion × Option DecodeError :=
  match d.failures.getLast? with
  | none => (d, some (.malformed "text outside <Error>"))
  | some last => ({ d with failures := d.failures.dropLast ++ [f last] }, none)

/-- Text directly in a field, appended to the entry that the element around it begins. -/
def onText (tag : DeletionTag) (text : String) (stack : Stack DeletionTag) (d : Deletion) :
    Deletion × Option DecodeError :=
  match stack.parent, tag with
  | some .deleted, .key => onDeleted (fun e => { e with key := e.key ++ text }) d
  | some .deleted, .versionId =>
      onDeleted (fun e => { e with versionId := some (e.versionId.getD "" ++ text) }) d
  | some .failure, .key => onFailure (fun e => { e with key := e.key ++ text }) d
  | some .failure, .code => onFailure (fun e => { e with code := e.code ++ text }) d
  | some .failure, .message => onFailure (fun e => { e with message := e.message ++ text }) d
  | _, _ => (d, none)

/-- The calls that build up an outcome. -/
def handling : Handling DeletionTag Deletion where
  onStart tag d := (onStart tag d, none)
  onText := onText
  onEnd _ d := (d, none)

/-- The outcome of a document. -/
def decode (body : List UInt8) : Except DecodeError Deletion :=
  Xml.decode handling table body {}

end Deletion

end ObjectStore
