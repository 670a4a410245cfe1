import ObjectStore.Request.Named
import ObjectStore.Xml.Visit

/-!
# Keys that are carried by bulk deletes

What a decoder of the document of a bulk delete is called for, whatever its handlers are, and what
it means for a request to carry a list of keys.
-/

namespace ObjectStore.Request

open Text Xml

variable {H : Type}

/-- The calls for one key: an object with a key in it, whose text is the key. An empty key has no
text. -/
def keyVisits (table : Table H) (key : String) : List (Visit H) :=
  let root := table.find (Utf8.ofText "Delete")
  let object := table.find (Utf8.ofText "Object")
  let name := table.find (Utf8.ofText "Key")
  [.entered object, .entered name] ++
    (if key = "" then [] else [.text name key ⟨[name, object, root]⟩]) ++
    [.left name, .left object]

/-- The calls for a list of keys, one key after the other and nothing else. -/
def deleteVisits (table : Table H) (keys : List String) : List (Visit H) :=
  let root := table.find (Utf8.ofText "Delete")
  .entered root :: keys.flatMap (keyVisits table) ++ [.left root]

/-- A bulk delete of keys, with a checksum of the document that names them. -/
structure Carries (r : Request) (bucket : String) (keys : List String) : Prop where
  operation : r.operation = .bulkDelete
  bucket : r.bucket = bucket
  /-- A handler for keys finds these keys. -/
  decoded : keysOfDocument r.body = .ok keys
  /-- Any handlers are called for one element of a key after the other, and for nothing else. -/
  visits : ∀ {H : Type} (table : Table H), visits table r.body = .ok (deleteVisits table keys)
  checksum : r.contentMd5 = some (Base64.encode (Digest.Md5.digest r.body))

end ObjectStore.Request
