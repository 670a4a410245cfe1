import ObjectStore.ServiceError
import ObjectStore.Xml.Tree

/-!
# What an error document says

The fields of an error are the texts that are written in the elements of their names. Such an
element counts wherever it stands, as long as it is directly in an `Error` element.
-/

namespace ObjectStore

open Text Xml

namespace Xml.Nodes

variable {N : Type} [DecidableEq N]

/-- The texts directly in elements of a name that stand directly in elements of an outer name, in
the order of the document. The nodes are in the element `around`, which is in the element
`parent`. -/
def textsIn (outer name : N) (parent around : Option N) : Nodes N → List String
  | nil => []
  | text chars rest =>
      (if parent = some outer ∧ around = some name then [chars] else []) ++
        rest.textsIn outer name parent around
  | element other inner rest =>
      inner.textsIn outer name around (some other) ++ rest.textsIn outer name parent around

end Xml.Nodes

/-- The name of an element. -/
def ServiceErrorTag.element : ServiceErrorTag → String
  | .root => "Error"
  | .code => "Code"
  | .message => "Message"
  | .resource => "Resource"
  | .requestId => "RequestId"
  | .unknown => "Unknown"

namespace ServiceError

/-- The texts of a field of an error document. -/
def fieldTexts (nodes : Nodes (List UInt8)) (tag : ServiceErrorTag) : List String :=
  nodes.textsIn (Utf8.ofText ServiceErrorTag.root.element) (Utf8.ofText tag.element) none none

/-- Texts one after the other, if there are any. -/
def joined? (texts : List String) : Option String :=
  if texts.isEmpty then none else some (String.join texts)

/-- The error that a whole document describes. -/
def ofNodes (status : Nat) (nodes : Nodes (List UInt8)) : ServiceError where
  status := status
  code := String.join (fieldTexts nodes .code)
  message := String.join (fieldTexts nodes .message)
  resource := joined? (fieldTexts nodes .resource)
  requestId := joined? (fieldTexts nodes .requestId)

end ServiceError

end ObjectStore
