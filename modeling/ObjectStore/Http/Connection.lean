import ObjectStore.Http.Response

/-!
# What `Connection` fields say

The versions in their order, the words in the readable `Connection` fields of a response, and the
field that is made of given parts.
-/

namespace ObjectStore.Http

open Text

/-- The place of a version among all of them, from the oldest one on. -/
def Version.place : Version → Nat
  | .v09 => 0
  | .v10 => 1
  | .v11 => 2
  | .v2 => 3
  | .v3 => 4

instance : LE Version := ⟨fun v w => v.place ≤ w.place⟩

instance (v w : Version) : Decidable (v ≤ w) := inferInstanceAs (Decidable (v.place ≤ w.place))

/-- A field says a word that is among the parts between its commas, in any case of its letters and
with any blanks around it. -/
def Header.Says (h : Header) (word : String) : Prop :=
  h.name = "connection" ∧ ∃ value, h.readable? = some value ∧
    ∃ part ∈ value.toList.splitOn ',', sameWord (stripList isBlank part) word.toList = true

/-- Some field of a response says a word. -/
def Response.Says (r : Response) (word : String) : Prop := ∃ h ∈ r.headers, h.Says word

/-- A character that is readable in a field. -/
def isFieldChar (c : Char) : Bool := Header.isReadableByte c.toNat.toUInt8 && c.toNat < 0x80

/-- What may stand between two commas of a readable field. -/
structure FieldPart where
  chars : List Char
  readable : ∀ c ∈ chars, isFieldChar c = true
  whole : ',' ∉ chars

/-- The `Connection` field that is made of parts, with commas between them. -/
def connectionField (parts : List FieldPart) : Header where
  name := "connection"
  value := ([','].intercalate (parts.map FieldPart.chars)).map fun c => c.toNat.toUInt8

end ObjectStore.Http
