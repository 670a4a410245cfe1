import ObjectStore.Text.Percent

/-!
# Escaped texts

The characters that stand for themselves in a request target, and the form of a text in which all
other bytes are escaped.
-/

namespace ObjectStore.Text.Percent

/-- A character that needs no escape: a letter, a digit or one of four marks. -/
def isUnreservedChar (c : Char) : Bool := c.isAlphanum || ['-', '.', '_', '~'].contains c

/-- A digit in base sixteen, the letters as capitals. -/
def isCapitalDigit (c : Char) : Bool := c.isDigit || ('A' ≤ c && c ≤ 'F')

/-- A text of plain characters and escapes, each of which is a percent sign and two digits. -/
inductive Escaped (plain : Char → Bool) : List Char → Prop
  | nil : Escaped plain []
  | plain {c : Char} {rest : List Char} (hc : plain c = true) (hrest : Escaped plain rest) :
      Escaped plain (c :: rest)
  | escape {a b : Char} {rest : List Char} (ha : isCapitalDigit a = true)
      (hb : isCapitalDigit b = true) (hrest : Escaped plain rest) :
      Escaped plain ('%' :: a :: b :: rest)

end ObjectStore.Text.Percent
