import ObjectStore.CommandLine.Course
import ObjectStore.Xml.Decoder

/-!
# Named objects

Which objects are named by what is sent to delete them: the path of a single delete stands for
one key, and the document of a bulk delete holds a list of them.
-/

namespace ObjectStore

open Text Xml

namespace Request

/-- A key without the slashes at its head. -/
def trimmedKey (key : String) : String := String.ofList (key.toList.dropWhile (· == '/'))

/-- The key that a path stands for, after its first slash. -/
def keyOfPath (target : String) : Option String :=
  match target.toList with
  | '/' :: chars => (Utf8.decode (Percent.decodeList chars)).toOption.map String.ofList
  | _ => none

/-- The elements that are told apart in the document of a bulk delete. -/
inductive DeleteTag
  | key
  | other
  deriving Repr, DecidableEq

/-- Each element of a key begins one and its texts are appended to it. -/
def keyHandling : Handling DeleteTag (List String) where
  onStart
    | .key, keys => (keys ++ [""], none)
    | .other, keys => (keys, none)
  onText
    | .key, chars, _, keys => (keys.dropLast ++ [keys.getLast?.getD "" ++ chars], none)
    | .other, _, _, keys => (keys, none)
  onEnd _ keys := (keys, none)

def keyTable : Table DeleteTag := Table.ofList .other [("Key", .key)]

/-- The keys in the document of a bulk delete. -/
def keysOfDocument (body : List UInt8) : Except DecodeError (List String) :=
  Xml.decode keyHandling keyTable body []

/-- The keys of the objects that a request deletes. -/
def deletes (r : Request) : Option (List String) :=
  match r.operation with
  | .delete => (keyOfPath r.target).map fun key => [key]
  | .bulkDelete => (keysOfDocument r.body).toOption
  | _ => some []

end Request

/-- The keys of the objects that a call deletes. -/
def Call.deletes : Call → Option (List String)
  | .send request _ => request.deletes
  | .ready _ => some []

/-- The keys of the objects that are deleted by what a turn asks for. -/
def CommandLine.Turn.deletes (t : Turn) : Option (List String) :=
  match t.next with
  | .asks (.calls calls) _ => (calls.mapM Call.deletes).map List.flatten
  | _ => some []

end ObjectStore
