import ObjectStore.Text.Printable

/-!
# Quoted texts

A text between double quotes as a diagnostic shows it: quotes and backslashes are escaped, line
ends and the like have letters, and a character without a form of its own is shown by number.
-/

namespace ObjectStore.Text.Quoted

/-- The digits of a number in base sixteen, at least one; `fuel` bounds their count. -/
def hexFrom : Nat → Nat → List Char
  | 0, _ => []
  | fuel + 1, n =>
      (if n < 16 then [] else hexFrom fuel (n / 16)) ++ [(Nat.digitChar (n % 16))]

/-- A character by its number. -/
def byNumber (c : Char) : List Char :=
  ['\\', 'u', '\x7b'] ++ hexFrom 6 c.toNat ++ ['\x7d']

/-- One character between the quotes. -/
def escapeChar (c : Char) : List Char :=
  if c = '\x22' then ['\\', '\x22']
  else if c = '\\' then ['\\', '\\']
  else if c = '\n' then ['\\', 'n']
  else if c = '\r' then ['\\', 'r']
  else if c = '\t' then ['\\', 't']
  else if c.toNat = 0 then ['\\', '0']
  else if Printable.isExtending c || !Printable.isPrintable c then byNumber c
  else [c]

/-- A text between quotes. -/
def quote (s : String) : String :=
  String.ofList ('\x22' :: s.toList.flatMap escapeChar ++ ['\x22'])

end ObjectStore.Text.Quoted
