import ObjectStore.Text.Utf8

/-!
# Header fields

Names and values of header fields, what may stand in them, and what of a value is readable as
text.
-/

namespace ObjectStore.Http

open Text

/-- A header field. Names are in small letters. -/
structure Header where
  name : String
  value : List UInt8
  deriving Repr, DecidableEq, Inhabited

namespace Header

/-- The marks that may stand in a name beside letters and digits. -/
def nameMarks : List Char := "!#$%&'*+-.^_|~".toList ++ [Char.ofNat 0x60]

/-- A character of a name. -/
def isNameChar (c : Char) : Bool := c.isAlphanum || nameMarks.contains c

/-- The number of characters of the longest name. -/
def longestName : Nat := 65535

/-- The name of a field, in small letters. -/
def name? (s : String) : Option String :=
  if !s.isEmpty && s.length ≤ longestName && s.toList.all isNameChar then
    some (String.ofList (s.toList.map Char.toLower))
  else none

/-- A byte of a value: no control byte other than the tab. -/
def isValueByte (b : UInt8) : Bool := (0x20 ≤ b && b != 0x7F) || b == 0x09

/-- A byte of a value that is readable as text. -/
def isReadableByte (b : UInt8) : Bool := (0x20 ≤ b && b < 0x7F) || b == 0x09

/-- The text of a value: none when it has a byte outside of ASCII. -/
def readable? (h : Header) : Option String :=
  if h.value.all isReadableByte then
    some (String.ofList (h.value.map fun b => Char.ofNat b.toNat))
  else none

/-- The first field of a name. -/
def find? (headers : List Header) (name : String) : Option Header :=
  headers.find? (·.name == name)

end Header

/-- Fields in the order of their names, fields of one name in their own order. -/
def sortHeaders (headers : List Header) : List Header :=
  headers.mergeSort fun a b => !(b.name < a.name)

end ObjectStore.Http
