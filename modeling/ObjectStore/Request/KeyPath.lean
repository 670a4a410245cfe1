import ObjectStore.Request.Named
import ObjectStore.Text.Escaped

/-!
# Keys in paths

A key as it stands in the path of a request, and keys that differ in the slashes at their heads
alone.
-/

namespace ObjectStore

open Text

/-- A character that stands for itself in a path. -/
def isPathMark (c : Char) : Bool := Percent.isUnreservedChar c || c == '/'

namespace Request

/-- A key in a path: untouched when none of its bytes needs an escape, and else written byte after
byte. -/
def pathKey (key : String) : String :=
  let bytes := Utf8.ofText key
  if bytes.all keepsInPath then key else String.ofList (Percent.encodeList keepsInPath bytes)

/-- Keys that are the same behind the slashes at their heads. -/
def SameBehindSlashes (a b : String) : Prop :=
  ∃ m n rest, a.toList = List.replicate m '/' ++ rest ∧ b.toList = List.replicate n '/' ++ rest

end Request

end ObjectStore
