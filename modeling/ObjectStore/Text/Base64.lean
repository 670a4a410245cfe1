/-!
# Base64

Bytes as letters of the standard alphabet, three bytes to four letters, with padding.
-/

namespace ObjectStore.Text.Base64

/-- The 64 letters in order of their values. -/
def alphabet : List Char :=
  "ABCDEFGHIJKLMNOPQRSTUVWXYZabcdefghijklmnopqrstuvwxyz0123456789+/".toList

/-- The letter of a value below 64. -/
def letter (n : Nat) : Char := alphabet.getD (n % 64) 'A'

/-- Letters of a byte sequence. -/
def letters : List UInt8 → List Char
  | a :: b :: c :: r =>
      let n := a.toNat * 65536 + b.toNat * 256 + c.toNat
      letter (n / 262144) :: letter (n / 4096) :: letter (n / 64) :: letter n :: letters r
  | [a, b] =>
      let n := a.toNat * 65536 + b.toNat * 256
      [letter (n / 262144), letter (n / 4096), letter (n / 64), '=']
  | [a] =>
      let n := a.toNat * 65536
      [letter (n / 262144), letter (n / 4096), '=', '=']
  | [] => []

/-- The text of a byte sequence. -/
def encode (bytes : List UInt8) : String := String.ofList (letters bytes)

end ObjectStore.Text.Base64
