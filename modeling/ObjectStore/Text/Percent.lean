import ObjectStore.Text.Utf8

/-!
# Percent encoding

Bytes of a text as characters that may stand in a request path: letters, digits and four marks
as they are, every other byte as `%` and two digits in base sixteen.
-/

namespace ObjectStore.Text.Percent

/-- Bytes that need no escape: letters, digits, hyphen, full stop, underscore and tilde. -/
def isUnreserved (b : UInt8) : Bool :=
  (0x30 ≤ b && b ≤ 0x39) || (0x41 ≤ b && b ≤ 0x5A) || (0x61 ≤ b && b ≤ 0x7A)
    || b == 0x2D || b == 0x2E || b == 0x5F || b == 0x7E

/-- A capital digit in base sixteen. -/
def hexDigit (n : Nat) : Char :=
  if n % 16 < 10 then Char.ofNat (48 + n % 16) else Char.ofNat (55 + n % 16)

/-- The value of a digit in base sixteen, in either case. -/
def hexValue? (c : Char) : Option Nat :=
  if '0' ≤ c ∧ c ≤ '9' then some (c.toNat - 48)
  else if 'A' ≤ c ∧ c ≤ 'F' then some (c.toNat - 55)
  else if 'a' ≤ c ∧ c ≤ 'f' then some (c.toNat - 87)
  else none

/-- One byte: itself when `keep` says so, else its escape. -/
def encodeByte (keep : UInt8 → Bool) (b : UInt8) : List Char :=
  if keep b then [Char.ofNat b.toNat]
  else ['%', hexDigit (b.toNat / 16), hexDigit b.toNat]

/-- The bytes of a text, those escaped that are not to be kept. -/
def encodeList (keep : UInt8 → Bool) (bytes : List UInt8) : List Char :=
  bytes.flatMap (encodeByte keep)

/-- A text as the value of a query parameter. -/
def encode (s : String) : String := String.ofList (encodeList isUnreserved (Utf8.ofText s))

/-- The bytes of an encoded text. A percent sign that no two digits follow stands for itself. -/
def decodeList : List Char → List UInt8
  | [] => []
  | '%' :: a :: b :: r =>
      match hexValue? a, hexValue? b with
      | some a, some b => (a * 16 + b).toUInt8 :: decodeList r
      | _, _ => 0x25 :: decodeList (a :: b :: r)
  | c :: r => Utf8.encodeChar c ++ decodeList r
termination_by cs => cs.length

end ObjectStore.Text.Percent
